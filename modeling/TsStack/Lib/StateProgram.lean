import Mathlib.Tactic.SplitIfs

/-
  Programs with an environment, a mutable state and errors
  that leave the state as it was when they were thrown.

  A contract names what every step keeps: an invariant, and
  a relation from the state before to the state after.  The
  rules below carry a contract through a program whether it
  returns or throws.
-/

-- Programs and Contracts

/- Environment `ρ`, error `ε`, state `σ`. -/
abbrev StateProgram (ρ ε σ : Type) :=
  ReaderT ρ (EStateM ε σ)

namespace StateProgram

variable {ρ ε σ α β : Type}

def finalState : EStateM.Result ε σ α → σ
| .ok _ state => state
| .error _ state => state

/- An invariant and a relation from before to after. -/
structure Contract (ρ σ : Type) where
  inv : ρ → σ → Prop
  rel : ρ → σ → σ → Prop
  refl : ∀ env state, rel env state state
  trans :
    ∀ env first second third, rel env first second → rel env second third → rel env first third

def Contract.Step (contract : Contract ρ σ) (env : ρ) (before after : σ) : Prop :=
  contract.inv env after ∧ contract.rel env before after

/-
  From states of the invariant, `program` takes steps of
  the contract, and its value satisfies `Q` if it returns.
-/
def Keeps (contract : Contract ρ σ) (program : StateProgram ρ ε σ α) (Q : α → Prop) : Prop :=
  ∀ env state, contract.inv env state → contract.Step env state (finalState (program env state)) ∧
      ∀ value state', program env state = .ok value state' → Q value

def throwIf (condition : Prop) [Decidable condition] (error : ε) : StateProgram ρ ε σ Unit :=
  if condition then throw error else pure ()

def ofExcept :
  Except ε α → StateProgram ρ ε σ α
| .ok value => pure value
| .error error => throw error

def andThenAlways (program : StateProgram ρ ε σ α) (cleanUp : σ → σ) : StateProgram ρ ε σ α :=
  fun env state =>
    match program env state with
    | .ok value after => .ok value (cleanUp after)
    | .error error after => .error error (cleanUp after)

-- Runs

theorem pure_run (value : α) (env : ρ) (state : σ) :
  (pure value : StateProgram ρ ε σ α) env state = .ok value state := rfl

theorem get_run (env : ρ) (state : σ) :
  (get : StateProgram ρ ε σ σ) env state = .ok state state := rfl

theorem set_run (next : σ) (env : ρ) (state : σ) :
  (set next : StateProgram ρ ε σ PUnit) env state = .ok ⟨⟩ next := rfl

theorem read_run (env : ρ) (state : σ) :
  (read : StateProgram ρ ε σ ρ) env state = .ok env state := rfl

theorem modify_run (update : σ → σ) (env : ρ) (state : σ) :
  (modify update : StateProgram ρ ε σ PUnit) env state = .ok ⟨⟩ (update state) := rfl

theorem bind_run
  (program : StateProgram ρ ε σ α) (next : α → StateProgram ρ ε σ β) (env : ρ) (state : σ) :
  (program >>= next) env state =
    match program env state with
      | .ok value state' => next value env state'
      | .error error state' => .error error state' := rfl

theorem bind_ok
  {program : StateProgram ρ ε σ α} {next : α → StateProgram ρ ε σ β} {env : ρ} {state after : σ}
  {result : β} (hRun : (program >>= next) env state = .ok result after) :
  ∃ value middle, program env state = .ok value middle ∧
    next value env middle = .ok result after := by
  rw [bind_run] at hRun
  cases hProgram : program env state with
  | ok value middle =>
    rw [hProgram] at hRun
    exact ⟨value, middle, rfl, hRun⟩
  | error error middle =>
    rw [hProgram] at hRun
    cases hRun

theorem ofExcept_ok {outcome : Except ε α} {env : ρ} {state after : σ} {value : α}
  (hRun : (ofExcept outcome : StateProgram ρ ε σ α) env state = .ok value after) :
  outcome = .ok value ∧ after = state := by
  cases outcome with
  | ok value =>
    cases hRun
    exact ⟨rfl, rfl⟩
  | error error => cases hRun

-- Rules for Primitive Programs

variable {contract : Contract ρ σ} {Q : α → Prop}

theorem Contract.step_refl {env : ρ} {state : σ} (hInv : contract.inv env state) :
  contract.Step env state state :=
  ⟨hInv, contract.refl env state⟩

theorem Contract.Step.trans
  {env : ρ} {first second third : σ} (hFst : contract.Step env first second)
  (hSnd : contract.Step env second third) : contract.Step env first third :=
  ⟨hSnd.1, contract.trans env _ _ _ hFst.2 hSnd.2⟩

theorem keeps_pure {value : α} (hValue : Q value) :
  Keeps contract (pure value : StateProgram ρ ε σ α) Q := by
  intro env state hInv
  refine ⟨Contract.step_refl hInv, ?_⟩
  rintro _ _ hRun
  cases hRun
  exact hValue

theorem keeps_throw (error : ε) : Keeps contract (throw error : StateProgram ρ ε σ α) Q := by
  intro env state hInv
  refine ⟨Contract.step_refl hInv, ?_⟩
  rintro _ _ hRun
  cases hRun

theorem keeps_get : Keeps contract (get : StateProgram ρ ε σ σ) (fun _ => True) := by
  intro env state hInv
  exact ⟨Contract.step_refl hInv, fun _ _ _ => trivial⟩

theorem keeps_read : Keeps contract (read : StateProgram ρ ε σ ρ) (fun _ => True) := by
  intro env state hInv
  exact ⟨Contract.step_refl hInv, fun _ _ _ => trivial⟩

theorem keeps_modify {update : σ → σ}
  (hUpd : ∀ env state, contract.inv env state → contract.Step env state (update state)) :
  Keeps contract
    (modify update : StateProgram ρ ε σ Unit)
    (fun _ => True) := by
  intro env state hInv
  exact ⟨hUpd env state hInv, fun _ _ _ => trivial⟩

-- Rules for Compound Programs

variable
    {program : StateProgram ρ ε σ α} {P : α → Prop}

/- Values may be weakened. -/
theorem Keeps.mono (hProgram : Keeps contract program P) (hValue : ∀ value, P value → Q value) :
  Keeps contract program Q := by
  intro env state hInv
  rcases hProgram env state hInv with ⟨hStep, hRes⟩
  exact ⟨hStep, fun value state' hRun => hValue value (hRes value state' hRun)⟩

theorem Keeps.any (hProgram : Keeps contract program P) : Keeps contract program (fun _ => True) :=
  hProgram.mono fun _ _ => trivial

variable {next : α → StateProgram ρ ε σ β}

theorem Keeps.bind {Q : β → Prop} (hProgram : Keeps contract program P)
  (hNext : ∀ value, P value → Keeps contract (next value) Q) :
  Keeps contract (program >>= next) Q := by
  intro env state hInv
  rcases hProgram env state hInv with ⟨hStep, hRes⟩
  rw [bind_run]
  cases hRun : program env state with
  | error error state' =>
    rw [hRun] at hStep
    refine ⟨hStep, ?_⟩
    rintro _ _ hEq
    cases hEq
  | ok value state' =>
    rw [hRun] at hStep
    rcases hNext value (hRes value state' hRun) env state' hStep.1 with ⟨hStep', hRes'⟩
    exact ⟨hStep.trans hStep', hRes'⟩

/- The next program needs nothing of the one before it. -/
theorem Keeps.andThen {Q : β → Prop} {rest : StateProgram ρ ε σ β}
  (hProgram : Keeps contract program P) (hRest : Keeps contract rest Q) :
  Keeps contract (program >>= fun _ => rest) Q :=
  hProgram.bind fun _ _ => hRest

theorem Keeps.ite {condition : Prop} [Decidable condition] {yes no : StateProgram ρ ε σ α}
  (hYes : condition → Keeps contract yes Q) (hNo : ¬condition → Keeps contract no Q) :
  Keeps contract (if condition then yes else no) Q := by
  split_ifs with hCond
  · exact hYes hCond
  · exact hNo hCond

theorem keeps_throwIf (condition : Prop) [Decidable condition] (error : ε) :
  Keeps contract
    (throwIf condition error : StateProgram ρ ε σ Unit)
    (fun _ => ¬condition) :=
  .ite (fun _ => keeps_throw error) fun hCond => keeps_pure hCond

theorem keeps_ofExcept (result : Except ε α) :
  Keeps contract
    (ofExcept result : StateProgram ρ ε σ α)
    (fun value => result = .ok value) := by
  cases result with
  | ok value => exact keeps_pure rfl
  | error error => exact keeps_throw error

-- Families With a Bound

/-
  From every state of the invariant the programs of a family do the same from some bound on: steps
  of the contract, with a value that satisfies `Q` if they return.
-/
def Settles (contract : Contract ρ σ) (family : Nat → StateProgram ρ ε σ α) (Q : α → Prop) : Prop :=
  ∀ env state, contract.inv env state →
    ∃ bound, (∀ more, bound ≤ more → family more env state = family bound env state) ∧
      contract.Step env state (finalState (family bound env state)) ∧
        ∀ value after, family bound env state = .ok value after → Q value

theorem Settles.bind
  {family : Nat → StateProgram ρ ε σ α} {next : Nat → α → StateProgram ρ ε σ β} {Q : β → Prop}
  (hFamily : Settles contract family P)
  (hNext : ∀ value, P value → Settles contract (fun bound => next bound value) Q) :
  Settles contract (fun bound => family bound >>= next bound) Q := by
  intro env state hInv
  rcases hFamily env state hInv with ⟨first, hFirst, hStep, hValue⟩
  cases hRun : family first env state with
  | error error after =>
    have hError
        (more : Nat) (hMore : first ≤ more) :
        (family more >>= next more) env state = .error error after := by
      rw [bind_run, hFirst more hMore, hRun]
    rw [hRun] at hStep
    refine ⟨first, fun more hMore => (hError more hMore).trans (hError _ (Nat.le_refl _)).symm, ?_⟩
    simp only [hError _ (Nat.le_refl _)]
    exact ⟨hStep, fun _ _ hEq => nomatch hEq⟩
  | ok value after =>
    rw [hRun] at hStep
    rcases hNext value (hValue value after hRun) env after hStep.1 with
      ⟨second, hSecond, hStep', hLast⟩
    -- Both parts have settled at the larger bound.
    have hBoth
        (more : Nat) (hMore : max first second ≤ more) :
        (family more >>= next more) env state = next second value env after := by
      rw [bind_run, hFirst more (Nat.le_trans (Nat.le_max_left ..) hMore), hRun]
      exact hSecond more (Nat.le_trans (Nat.le_max_right ..) hMore)
    refine ⟨max first second,
      fun more hMore => (hBoth more hMore).trans (hBoth _ (Nat.le_refl _)).symm, ?_⟩
    simp only [hBoth _ (Nat.le_refl _)]
    exact ⟨hStep.trans hStep', hLast⟩

theorem andThenAlways_ok
  {cleanUp : σ → σ} {env : ρ} {state after : σ} {value : α}
  (hRun : andThenAlways program cleanUp env state = .ok value after) :
  ∃ last, program env state = .ok value last ∧ after = cleanUp last := by
  unfold andThenAlways at hRun
  cases hProgram : program env state with
  | error error last =>
    rw [hProgram] at hRun
    cases hRun
  | ok result last =>
    rw [hProgram] at hRun
    cases hRun
    exact ⟨last, rfl, rfl⟩

/- The clean-up may end in another contract. -/
theorem Settles.andThenAlways
  {contract' : Contract ρ σ} {family : Nat → StateProgram ρ ε σ α} {cleanUp : σ → σ}
  (hFamily : Settles contract family P)
  (hStep : ∀ env before after, contract'.inv env before → contract.inv env before ∧
      (contract.Step env before after → contract'.Step env before (cleanUp after))) :
  Settles contract' (fun bound => StateProgram.andThenAlways (family bound) cleanUp) P := by
  intro env state hInv
  rcases hFamily env state (hStep env state state hInv).1 with ⟨bound, hMore, hKept, hValue⟩
  have hAfter := (hStep env state _ hInv).2 hKept
  refine ⟨bound, fun more hLe => ?_, ?_, fun value after hRun => ?_⟩
  · simp only [StateProgram.andThenAlways, hMore more hLe]
  · simp only [StateProgram.andThenAlways]
    cases hRun : family bound env state <;> rwa [hRun] at hAfter
  · rcases andThenAlways_ok hRun with ⟨last, hRun, -⟩
    exact hValue value last hRun

-- Programs Whose Outcome Is Known

def outcome : EStateM.Result ε σ α → Except ε α
| .ok value _ => .ok value
| .error error _ => .error error

/-
  From every state of an invariant a program has the same
  outcome, and its final state is one of the invariant.
-/
def Computes
  (Inv : σ → Prop) (env : ρ) (program : StateProgram ρ ε σ α) (result : Except ε α) : Prop :=
  ∀ state, Inv state → Inv (finalState (program env state)) ∧ outcome (program env state) = result

variable {Inv : σ → Prop} {env : ρ}

theorem computes_pure (value : α) :
  Computes Inv env (pure value : StateProgram ρ ε σ α) (.ok value) :=
  fun _ hInv => ⟨hInv, rfl⟩

theorem computes_ofExcept (result : Except ε α) :
  Computes Inv env (ofExcept result : StateProgram ρ ε σ α) result := by
  intro state hInv
  cases result with
  | ok value => exact ⟨hInv, rfl⟩
  | error error => exact ⟨hInv, rfl⟩

theorem Computes.bind
  {result : Except ε α} {rest : α → Except ε β} (hProgram : Computes Inv env program result)
  (hNext : ∀ value, result = .ok value → Computes Inv env (next value) (rest value)) :
  Computes Inv env (program >>= next) (result >>= rest) := by
  intro state hInv
  rcases hProgram state hInv with ⟨hFinal, hOut⟩
  rw [bind_run]
  cases hRun : program env state with
  | ok value after =>
    rw [hRun] at hFinal hOut
    cases hOut
    exact hNext value rfl after hFinal
  | error error after =>
    rw [hRun] at hFinal hOut
    cases hOut
    exact ⟨hFinal, rfl⟩

theorem computes_modify {update : σ → σ} (hUpd : ∀ state, Inv state → Inv (update state)) :
  Computes Inv env (modify update : StateProgram ρ ε σ Unit) (.ok ()) :=
  fun state hInv => ⟨hUpd state hInv, rfl⟩

theorem Computes.bind_read {next : ρ → StateProgram ρ ε σ β} {result : Except ε β}
  (hNext : Computes Inv env (next env) result) : Computes Inv env (readThe ρ >>= next) result :=
  fun state hInv => hNext state hInv

end StateProgram
