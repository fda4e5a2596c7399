import Mathlib.Data.List.Basic

/-
  Parsers over lists of tokens.

  A parser maps the remaining tokens to a value and the
  tokens it leaves, or fails.  Two laws organize the proofs
  about it: `Reads` says which tokens a parser consumes for
  a value whatever follows, and `Prefixed` says every
  success is of that kind.  `Parses` describes the values
  and the tokens of every success, and `ReadsAt` is `Reads`
  for a parser that may ask for its position in the input.
-/

-- Parsers

/- A parser over tokens `σ` failing with `ε`. -/
abbrev ListParser (ε σ : Type) :=
  StateT (List σ) (Except ε)

open List

namespace ListParser

variable {ε σ α β : Type}

/- The parser reads `value` from exactly `tokens`. -/
def Reads (p : ListParser ε σ α) (value : α) (tokens : List σ) : Prop :=
  ∀ rest, p (tokens ++ rest) = .ok (value, rest)

/- Every parsed value satisfies `P`. -/
def Yields (p : ListParser ε σ α) (P : α → Prop) : Prop :=
  ∀ input value rest, p input = .ok (value, rest) → P value

def fail (error : ε) : ListParser ε σ α :=
  fun _ => .error error

/- Take a fixed number of tokens or fail. -/
def take (error : ε) (count : Nat) : ListParser ε σ (List σ) :=
  fun input =>
    if count ≤ input.length then .ok (input.take count, input.drop count)
    else .error error

def ofExcept (result : Except ε α) : ListParser ε σ α :=
  match result with
  | .ok value => pure value
  | .error error => fail error

def times (p : ListParser ε σ α) :
  Nat → ListParser ε σ (List α)
| 0 => pure []
| count + 1 => do
    let value ← p
    let values ← times p count
    pure (value :: values)

-- Unfolding Successful Runs

@[simp] theorem pure_apply (value : α) (input : List σ) :
  (pure value : ListParser ε σ α) input = .ok (value, input) := rfl

theorem bind_apply (p : ListParser ε σ α) (f : α → ListParser ε σ β) (input : List σ) :
  (p >>= f) input = (match p input with
    | .ok (value, rest) => f value rest
    | .error error => .error error) := by
  change (p input >>= fun r => f r.1 r.2) = _
  cases p input with
  | ok r => rfl
  | error e => rfl

/- A sequence succeeds through an intermediate result. -/
theorem bind_eq_ok_iff
  (p : ListParser ε σ α) (f : α → ListParser ε σ β) (input rest : List σ) (value : β) :
  (p >>= f) input = .ok (value, rest) ↔ ∃ middle tokens,
      p input = .ok (middle, tokens) ∧ f middle tokens = .ok (value, rest) := by
  rw [bind_apply]
  cases hp : p input with
  | error e => simp
  | ok r =>
    rcases r with ⟨middle, tokens⟩
    constructor
    · intro h
      exact ⟨middle, tokens, rfl, h⟩
    · rintro ⟨middle', tokens', hEq, h⟩
      cases hEq
      exact h

theorem take_eq_ok_iff (error : ε) (count : Nat) (input rest value : List σ) :
  take error count input = .ok (value, rest) ↔ value.length = count ∧ input = value ++ rest := by
  unfold take
  constructor
  · intro h
    split_ifs at h with hCount
    cases h
    exact ⟨length_take_of_le hCount, (take_append_drop count input).symm⟩
  · rintro ⟨rfl, rfl⟩
    simp

-- Reading Rules

theorem reads_pure (value : α) : (pure value : ListParser ε σ α).Reads value [] := by
  intro rest
  rfl

variable {p : ListParser ε σ α} {f : α → ListParser ε σ β} {R : α → List σ → Prop} {P : α → Prop}

theorem Reads.bind
  {a : α} {b : β} {tokens₁ tokens₂ : List σ}
  (hp : p.Reads a tokens₁) (hf : (f a).Reads b tokens₂) :
  (p >>= f).Reads b (tokens₁ ++ tokens₂) := by
  intro rest
  rw [bind_apply, append_assoc, hp]
  exact hf rest

/- A sequence ending without consuming. -/
theorem Reads.bind_nil
  {first : α} {second : β} {tokens : List σ}
  (hp : p.Reads first tokens) (hf : (f first).Reads second []) : (p >>= f).Reads second tokens := by
  simpa using hp.bind hf

theorem reads_take (error : ε) (tokens : List σ) :
  (take error tokens.length).Reads tokens tokens := by
  intro rest
  exact (take_eq_ok_iff _ _ _ _ _).mpr ⟨rfl, rfl⟩

theorem Reads.times {γ : Type} {f : γ → α} {encode : γ → List σ} (sources : List γ)
  (hp : ∀ source ∈ sources, p.Reads (f source) (encode source)) :
  (p.times sources.length).Reads (sources.map f) (sources.flatMap encode) := by
  induction sources with
  | nil => exact reads_pure []
  | cons source sources ih =>
    have hHead := hp source mem_cons_self
    have hTail := ih fun s hs => hp s (mem_cons_of_mem _ hs)
    exact hHead.bind (hTail.bind_nil (reads_pure _))

/- Repetition reads each value from its own tokens. -/
theorem Reads.times_of_forall₂ {values : List α} {parts : List (List σ)}
  (hParts : List.Forall₂ p.Reads values parts) :
  (p.times values.length).Reads values parts.flatten := by
  induction hParts with
  | nil => exact reads_pure []
  | cons hHead _ ih => exact hHead.bind (ih.bind_nil (reads_pure _))

-- Result Rules

/- The result of a sequence, through the first result. -/
theorem Yields.bind {Q : β → Prop}
  (hp : p.Yields P) (hf : ∀ value, P value → (f value).Yields Q) : (p >>= f).Yields Q := by
  intro input value rest h
  rcases (bind_eq_ok_iff p f input rest value).mp h with ⟨middle, tokens, hFirst, hSecond⟩
  exact hf middle (hp _ _ _ hFirst) _ _ _ hSecond

theorem yields_pure {value : α} (h : P value) : (pure value : ListParser ε σ α).Yields P := by
  intro input result rest hRun
  cases hRun
  exact h

theorem Yields.ite {c : Prop} [Decidable c] {q : ListParser ε σ α} (hp : c → p.Yields P)
  (hq : ¬ c → q.Yields P) : (if c then p else q).Yields P := by
  split_ifs with h
  · exact hp h
  · exact hq h

theorem yields_take (error : ε) (count : Nat) :
  (take error count : ListParser ε σ _).Yields (fun tokens => tokens.length = count) := by
  intro input value rest h
  exact ((take_eq_ok_iff _ _ _ _ _).mp h).1

theorem Yields.times (hp : p.Yields P) (count : Nat) :
  (p.times count).Yields (fun values => values.length = count ∧ ∀ value ∈ values, P value) := by
  induction count with
  | zero => exact yields_pure ⟨rfl, by simp⟩
  | succ count ih =>
    refine hp.bind fun value hValue => ?_
    refine ih.bind fun values hValues => ?_
    refine yields_pure ⟨?_, ?_⟩
    · simp [hValues.1]
    · intro v hv
      rcases mem_cons.mp hv with rfl | hTail
      · exact hValue
      · exact hValues.2 v hTail

variable {ε σ α : Type}

def consumed (p : ListParser ε σ α) :
  ListParser ε σ (List σ × α) :=
  fun input =>
    match p input with
    | .ok (value, rest) => .ok ((input.take (input.length - rest.length), value), rest)
    | .error error => .error error

theorem Reads.consumed
  {p : ListParser ε σ α} {value : α} {tokens : List σ} (hp : p.Reads value tokens) :
  (consumed p).Reads (tokens, value) tokens := by
  intro rest
  unfold ListParser.consumed
  rw [hp rest]
  simp

-- Accepted Tokens

variable {ε σ α β : Type}

def Parses (p : ListParser ε σ α) (R : α → List σ → Prop) : Prop :=
  ∀ input value rest, p input = .ok (value, rest) →
      ∃ tokens, input = tokens ++ rest ∧ R value tokens

theorem parses_pure {R : α → List σ → Prop} {value : α} (h : R value []) :
  (pure value : ListParser ε σ α).Parses R := by
  intro input result rest hRun
  cases hRun
  exact ⟨[], rfl, h⟩

theorem parses_fail (error : ε) (R : α → List σ → Prop) :
  (fail error : ListParser ε σ α).Parses R := by
  intro input result rest hRun
  cases hRun

theorem parses_take (error : ε) (count : Nat) : (take error count : ListParser ε σ _).Parses
    (fun value tokens => value = tokens ∧ tokens.length = count) := by
  intro input value rest hRun
  rcases (take_eq_ok_iff _ _ _ _ _).mp hRun with ⟨hLen, hInput⟩
  exact ⟨value, hInput, rfl, hLen⟩

theorem Parses.mono {p : ListParser ε σ α} {R S : α → List σ → Prop} (hp : p.Parses R)
  (hImp : ∀ value tokens, R value tokens → S value tokens) : p.Parses S := by
  intro input value rest hRun
  rcases hp input value rest hRun with ⟨tokens, hInput, hR⟩
  exact ⟨tokens, hInput, hImp value tokens hR⟩

theorem Parses.bind {p : ListParser ε σ α} {f : α → ListParser ε σ β} {R : α → List σ → Prop}
  {S : β → List σ → Prop} (hp : p.Parses R) (hf : ∀ value tokens, R value tokens → (f value).Parses
        (fun result more => S result (tokens ++ more))) :
  (p >>= f).Parses S := by
  intro input result rest hRun
  rcases (bind_eq_ok_iff p f input rest result).mp hRun with ⟨value, middle, hFirst, hSecond⟩
  rcases hp _ _ _ hFirst with ⟨tokens, hInput, hR⟩
  rcases hf value tokens hR _ _ _ hSecond with ⟨more, hMiddle, hS⟩
  refine ⟨tokens ++ more, ?_, hS⟩
  rw [hInput, hMiddle, append_assoc]

/- The returned tokens are those the relation is about. -/
theorem Parses.consumed {p : ListParser ε σ α} {R : α → List σ → Prop} (hp : p.Parses R) :
  (ListParser.consumed p).Parses (fun result tokens =>
      result.1 = tokens ∧ R result.2 tokens) := by
  intro input result rest hRun
  unfold ListParser.consumed at hRun
  cases hParse : p input with
  | error error =>
    rw [hParse] at hRun
    cases hRun
  | ok parsed =>
    rcases hp input parsed.1 parsed.2 hParse with ⟨tokens, hInput, hR⟩
    have hTake : input.take (input.length - parsed.2.length) =
          tokens := by
      rw [hInput, length_append, Nat.add_sub_cancel, take_left]
    rw [hParse] at hRun
    simp only [hTake, Except.ok.injEq, Prod.mk.injEq] at hRun
    rcases hRun with ⟨rfl, rfl⟩
    exact ⟨tokens, hInput, rfl, hR⟩

theorem Parses.ite
  {c : Prop} [Decidable c] {p q : ListParser ε σ α} {R : α → List σ → Prop} (hp : c → p.Parses R)
  (hq : ¬ c → q.Parses R) : (if c then p else q).Parses R := by
  split_ifs with h
  · exact hp h
  · exact hq h

theorem Parses.times {γ : Type} {p : ListParser ε σ α} {f : γ → α} {encode : γ → List σ}
  (hp : p.Parses fun value tokens => ∃ source, value = f source ∧ tokens = encode source)
  (count : Nat) : (p.times count).Parses fun values tokens =>
    ∃ sources : List γ, sources.length = count ∧
        values = sources.map f ∧ tokens = sources.flatMap encode := by
  induction count with
  | zero => exact parses_pure ⟨[], rfl, rfl, rfl⟩
  | succ count ih =>
    apply hp.bind
    rintro _ _ ⟨source, rfl, rfl⟩
    apply ih.bind
    rintro _ _ ⟨sources, hCount, rfl, rfl⟩
    apply parses_pure
    exact ⟨source :: sources, by simp [hCount], by simp⟩

theorem Parses.times_forall₂
  {p : ListParser ε σ α} {R : α → List σ → Prop} (hp : p.Parses R) (count : Nat) :
  (p.times count).Parses fun values tokens =>
    values.length = count ∧ ∃ parts, List.Forall₂ R values parts ∧ tokens = parts.flatten := by
  induction count with
  | zero => exact parses_pure ⟨rfl, [], .nil, rfl⟩
  | succ count ih =>
    apply hp.bind
    intro value tokens hValue
    apply ih.bind
    rintro values _ ⟨hCount, parts, hParts, rfl⟩
    apply parses_pure
    refine ⟨by rw [length_cons, hCount], tokens :: parts, .cons hValue hParts, ?_⟩
    rw [append_nil, flatten_cons]

-- Positions

variable {ε σ α β γ : Type}

def position (whole : List σ) : ListParser ε σ Nat :=
  fun rest => .ok (whole.length - rest.length, rest)

def timesFrom (p : Nat → ListParser ε σ α) :
  Nat → Nat → ListParser ε σ (List α)
| _, 0 => pure []
| index, count + 1 => do
    let value ← p index
    let values ← timesFrom p (index + 1) count
    pure (value :: values)

def ReadsAt (p : ListParser ε σ α) (whole before : List σ) (value : α) (tokens : List σ) : Prop :=
  ∀ rest, whole = before ++ (tokens ++ rest) → p (tokens ++ rest) = .ok (value, rest)

theorem Reads.at {p : ListParser ε σ α} {value : α} {tokens : List σ} (hp : p.Reads value tokens)
  (whole before : List σ) : p.ReadsAt whole before value tokens := by
  intro rest _
  exact hp rest

theorem readsAt_position (whole before : List σ) :
  (position whole : ListParser ε σ Nat).ReadsAt whole before before.length [] := by
  intro rest hWhole
  simp [position, hWhole]

/- A sequence continues after the tokens read first. -/
theorem ReadsAt.bind
  {p : ListParser ε σ α} {f : α → ListParser ε σ β} {whole before : List σ} {a : α} {b : β}
  {tokens₁ tokens₂ : List σ} (hp : p.ReadsAt whole before a tokens₁)
  (hf : (f a).ReadsAt whole (before ++ tokens₁) b tokens₂) :
  (p >>= f).ReadsAt whole before b (tokens₁ ++ tokens₂) := by
  intro rest hWhole
  rw [append_assoc] at hWhole ⊢
  rw [bind_apply, hp _ hWhole]
  apply hf rest
  rw [hWhole, append_assoc]

/- A sequence ending without consuming. -/
theorem ReadsAt.bind_nil
  {p : ListParser ε σ α} {f : α → ListParser ε σ β} {whole before : List σ} {a : α} {b : β}
  {tokens : List σ} (hp : p.ReadsAt whole before a tokens)
  (hf : (f a).ReadsAt whole (before ++ tokens) b []) : (p >>= f).ReadsAt whole before b tokens := by
  simpa using hp.bind hf

theorem ReadsAt.timesFrom
  {p : Nat → ListParser ε σ α} {whole : List σ} {f : Nat → List σ → γ → α} {encode : γ → List σ}
  (hp : ∀ index before source, (p index).ReadsAt whole before
        (f index before source) (encode source)) :
  ∀ (sources : List γ) (index : Nat) (before : List σ),
    (ListParser.timesFrom p index sources.length).ReadsAt whole before
      (sources.mapIdx fun i source =>
        f (index + i) (before ++ (sources.take i).flatMap encode) source)
      (sources.flatMap encode)
| [], _, _ => (reads_pure []).at _ _
| source :: sources, index, before => by
    have hTail := ReadsAt.timesFrom hp sources (index + 1) (before ++ encode source)
    rw [flatMap_cons]
    apply (hp index before source).bind
    intro rest hWhole
    rw [bind_apply, hTail rest hWhole]
    simp [mapIdx_cons, Nat.add_assoc, Nat.add_comm 1]

end ListParser
