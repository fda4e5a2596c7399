import Mathlib.Data.List.Nodup
import Mathlib.Order.Bounds.Defs

/-
  The closure of a set of keys under the items that depend
  on one of them, found by passes over the items that repeat
  until one finds nothing new.
-/

-- Passes

open List

namespace TsStack.PassClosure

/-
  The keys reached so far, the items found, each with the reached keys it depends on, and whether
  this pass found one.
-/
structure State (Item κ : Type) where
  reached : List κ
  found : List (Item × List κ) := []
  grew : Bool := false
deriving DecidableEq, Repr

variable {Item κ : Type} [DecidableEq κ]

def causes (sources : Item → List κ) (reached : List κ) (item : Item) : List κ :=
  ((sources item).filter (· ∈ reached)).eraseDups

def visit (key : Item → κ) (sources : Item → List κ) (state : State Item κ)
  (item : Item) : State Item κ :=
  if key item ∈ state.reached then state
  else if causes sources state.reached item = [] then state
  else
    { reached := state.reached ++ [key item]
      found := state.found ++ [(item, causes sources state.reached item)]
      grew := true }

def pass (key : Item → κ) (sources : Item → List κ) (items : List Item)
  (state : State Item κ) : State Item κ :=
  items.foldl (visit key sources) { state with grew := false }

/- Passes, until one finds nothing new. -/
def passes (key : Item → κ) (sources : Item → List κ) (items : List Item) :
  Nat → State Item κ → State Item κ
| 0, state => state
| limit + 1, state =>
  let next := pass key sources items state
  if next.grew then passes key sources items limit next
  else next

/- A pass that finds something finds a new item, so one pass more than there are items is enough. -/
def run (key : Item → κ) (sources : Item → List κ) (items : List Item)
  (seeds : List κ) : State Item κ :=
  passes key sources items (items.length + 1) { reached := seeds }

def Closed (key : Item → κ) (sources : Item → List κ) (items : List Item) (seeds : List κ)
  (keys : Set κ) : Prop :=
  (∀ seed ∈ seeds, seed ∈ keys) ∧ ∀ item ∈ items,
      (∃ source ∈ sources item, source ∈ keys) → key item ∈ keys

-- What the Passes Keep

variable {key : Item → κ} {sources : Item → List κ} {items : List Item} {seeds reached : List κ}
variable {state : State Item κ} {item : Item}

theorem mem_causes_iff {cause : κ} :
  cause ∈ causes sources reached item ↔ cause ∈ sources item ∧ cause ∈ reached := by
  unfold causes
  rw [mem_eraseDups, mem_filter, decide_eq_true_iff]

theorem causes_eq_nil_iff :
  causes sources reached item = [] ↔ ∀ source ∈ sources item, source ∉ reached := by
  rw [eq_nil_iff_forall_not_mem]
  constructor
  · intro hNone source hSrc hReached
    exact hNone source (mem_causes_iff.mpr ⟨hSrc, hReached⟩)
  · intro hNone cause hCause
    have hBoth := mem_causes_iff.mp hCause
    exact hNone cause hBoth.1 hBoth.2

/-
  The reached keys are the seeds and the keys of the found
  items.  A found item is found once, and for a reason.
-/
structure Sound (key : Item → κ) (sources : Item → List κ) (items : List Item) (seeds : List κ)
  (state : State Item κ) : Prop where
  reached_eq : state.reached = seeds ++ state.found.map fun entry => key entry.1
  nodup : (state.found.map fun entry => key entry.1).Nodup
  fresh : ∀ entry ∈ state.found, key entry.1 ∉ seeds
  listed : ∀ entry ∈ state.found, entry.1 ∈ items
  caused : ∀ entry ∈ state.found, entry.2 ≠ [] ∧ ∀ cause ∈ entry.2,
          cause ∈ sources entry.1 ∧ cause ∈ state.reached
  least : ∀ keys, Closed key sources items seeds keys → ∀ found ∈ state.reached, found ∈ keys

omit [DecidableEq κ] in
theorem sound_start : Sound key sources items seeds { reached := seeds } where
  reached_eq := by simp
  nodup := List.nodup_nil
  fresh := by simp
  listed := by simp
  caused := by simp
  least := fun _keys hClosed => hClosed.1

theorem visit_cases
  (key : Item → κ) (sources : Item → List κ) (state : State Item κ) (item : Item) :
  (visit key sources state item = state ∧ (key item ∈ state.reached ∨
      causes sources state.reached item = [])) ∨
  (key item ∉ state.reached ∧ causes sources state.reached item ≠ [] ∧
    visit key sources state item =
      { reached := state.reached ++ [key item]
        found := state.found ++ [(item, causes sources state.reached item)]
        grew := true }) := by
  unfold visit
  by_cases hReached : key item ∈ state.reached
  · rw [if_pos hReached]
    exact .inl ⟨rfl, .inl hReached⟩
  · rw [if_neg hReached]
    by_cases hNone : causes sources state.reached item = []
    · rw [if_pos hNone]
      exact .inl ⟨rfl, .inr hNone⟩
    · rw [if_neg hNone]
      exact .inr ⟨hReached, hNone, rfl⟩

section

variable (hSound : Sound key sources items seeds state)

include hSound

theorem Sound.visit (hItem : item ∈ items) :
  Sound key sources items seeds (visit key sources state item) := by
  rcases visit_cases key sources state item with ⟨hEq, _⟩ | ⟨hReached, hCauses, hEq⟩
  · rw [hEq]
    exact hSound
  have hOutside := hReached
  rw [hSound.reached_eq, mem_append, not_or] at hOutside
  rw [hEq]
  constructor
  case reached_eq =>
    simp only [map_append, map_cons, map_nil]
    rw [hSound.reached_eq, append_assoc]
  case nodup =>
    simp only [map_append, map_cons, map_nil]
    apply nodup_append'.mpr
    constructor
    · exact hSound.nodup
    · constructor
      · exact nodup_singleton (key item)
      · apply disjoint_singleton.mpr
        exact hOutside.2
  case fresh =>
    intro entry hEntry
    rcases mem_append.mp hEntry with hOld | hNew
    · exact hSound.fresh entry hOld
    · rw [mem_singleton.mp hNew]
      exact hOutside.1
  case listed =>
    intro entry hEntry
    rcases mem_append.mp hEntry with hOld | hNew
    · exact hSound.listed entry hOld
    · rw [mem_singleton.mp hNew]
      exact hItem
  case caused =>
    intro entry hEntry
    rcases mem_append.mp hEntry with hOld | hNew
    · rcases hSound.caused entry hOld with ⟨hNonempty, hCaused⟩
      constructor
      · exact hNonempty
      · intro cause hCause
        have hBoth := hCaused cause hCause
        exact ⟨hBoth.1, mem_append_left _ hBoth.2⟩
    · rw [mem_singleton.mp hNew]
      constructor
      · exact hCauses
      · intro cause hCause
        have hBoth := mem_causes_iff.mp hCause
        exact ⟨hBoth.1, mem_append_left _ hBoth.2⟩
  case least =>
    intro keys hClosed found hFound
    rcases mem_append.mp hFound with hOld | hNew
    · exact hSound.least keys hClosed found hOld
    · rw [mem_singleton.mp hNew]
      apply hClosed.2 item hItem
      rcases exists_mem_of_ne_nil _ hCauses with ⟨cause, hCause⟩
      have hBoth := mem_causes_iff.mp hCause
      exact ⟨cause, hBoth.1, hSound.least keys hClosed cause hBoth.2⟩

theorem Sound.visits {some : List Item} (hSome : ∀ item ∈ some, item ∈ items) :
  Sound key sources items seeds (some.foldl (PassClosure.visit key sources) state) := by
  induction some generalizing state with
  | nil => exact hSound
  | cons item some ih =>
    apply ih
    · exact hSound.visit (hSome item mem_cons_self)
    · intro other hOther
      exact hSome other (mem_cons_of_mem item hOther)

theorem Sound.pass : Sound key sources items seeds (pass key sources items state) := by
  apply Sound.visits
  · exact ⟨hSound.reached_eq, hSound.nodup, hSound.fresh,
      hSound.listed, hSound.caused, hSound.least⟩
  · exact fun item hItem => hItem

end

variable (limit : Nat)

theorem Sound.passes (hSound : Sound key sources items seeds state) :
  Sound key sources items seeds (passes key sources items limit state) := by
  induction limit generalizing state with
  | zero => exact hSound
  | succ limit ih =>
    unfold PassClosure.passes
    dsimp only
    by_cases hGrew : (PassClosure.pass key sources items state).grew
    · rw [if_pos hGrew]
      exact ih hSound.pass
    · rw [if_neg hGrew]
      exact hSound.pass

theorem run_sound : Sound key sources items seeds (run key sources items seeds) :=
  Sound.passes (items.length + 1) sound_start

-- When the Passes End

variable {seeds : List κ}

theorem visits_grew (hGrew : state.grew = true) :
  (items.foldl (visit key sources) state).grew = true := by
  induction items generalizing state with
  | nil => exact hGrew
  | cons item items ih =>
    apply ih
    rcases visit_cases key sources state item with ⟨hEq, _⟩ | ⟨_, _, hEq⟩
    · rw [hEq]
      exact hGrew
    · rw [hEq]

/- Visits that find nothing leave nothing to be found. -/
theorem visits_idle (hIdle : (items.foldl (visit key sources) state).grew = false) :
  items.foldl (visit key sources) state = state ∧ ∀ item ∈ items, key item ∈ state.reached ∨
        causes sources state.reached item = [] := by
  induction items generalizing state with
  | nil => simp
  | cons item items ih =>
    rw [foldl_cons] at hIdle ⊢
    rcases visit_cases key sources state item with ⟨hEq, hItem⟩ | ⟨_, _, hEq⟩
    · rw [hEq] at hIdle ⊢
      rcases ih hIdle with ⟨hSame, hRest⟩
      constructor
      · exact hSame
      · intro other hOther
        rcases mem_cons.mp hOther with hHead | hTail
        · rw [hHead]
          exact hItem
        · exact hRest other hTail
    · have hGrew : (items.foldl (visit key sources) (visit key sources state item)).grew = true :=
        visits_grew (by rw [hEq])
      rw [hGrew] at hIdle
      cases hIdle

theorem visits_length_le :
  state.found.length ≤ (items.foldl (visit key sources) state).found.length := by
  induction items generalizing state with
  | nil => exact Nat.le_refl _
  | cons item items ih =>
    rw [foldl_cons]
    apply Nat.le_trans _ ih
    rcases visit_cases key sources state item with ⟨hEq, _⟩ | ⟨_, _, hEq⟩
    · exact Nat.le_of_eq (by rw [hEq])
    · rw [hEq, length_append]
      exact Nat.le_add_right _ _

theorem visits_length_lt
  (hStart : state.grew = false) (hGrew : (items.foldl (visit key sources) state).grew = true) :
  state.found.length < (items.foldl (visit key sources) state).found.length := by
  induction items generalizing state with
  | nil =>
    rw [foldl_nil, hStart] at hGrew
    cases hGrew
  | cons item items ih =>
    rw [foldl_cons] at hGrew ⊢
    rcases visit_cases key sources state item with ⟨hEq, _⟩ | ⟨_, _, hEq⟩
    · rw [hEq] at hGrew ⊢
      exact ih hStart hGrew
    · have hLonger : state.found.length < (visit key sources state item).found.length := by
        rw [hEq, length_append]
        exact Nat.lt_succ_self _
      exact Nat.lt_of_lt_of_le hLonger visits_length_le

/- An item is found at most once. -/
omit [DecidableEq κ] in
theorem Sound.length_le (hSound : Sound key sources items seeds state) :
  state.found.length ≤ items.length := by
  have hSubset : (state.found.map fun entry => key entry.1) ⊆ items.map key := by
    intro found hFound
    rcases List.mem_map.mp hFound with ⟨entry, hEntry, hEq⟩
    rw [← hEq]
    exact List.mem_map_of_mem (hSound.listed entry hEntry)
  have hLen := hSound.nodup.length_le_of_subset hSubset
  rwa [List.length_map, List.length_map] at hLen

/- A pass that finds nothing leaves nothing to be found. -/
theorem pass_idle (hIdle : (pass key sources items state).grew = false) :
  ∀ item ∈ items, key item ∈ (pass key sources items state).reached ∨
      causes sources (pass key sources items state).reached item = [] := by
  rcases visits_idle hIdle with ⟨hSame, hItems⟩
  unfold pass
  rw [hSame]
  exact hItems

theorem passes_grew (hSound : Sound key sources items seeds state)
  (hLimit : items.length < state.found.length + limit) :
  (passes key sources items limit state).grew = false := by
  induction limit generalizing state with
  | zero =>
    have hLe := hSound.length_le
    omega
  | succ limit ih =>
    unfold passes
    dsimp only
    cases hGrew : (pass key sources items state).grew with
    | true =>
      rw [if_pos rfl]
      apply ih hSound.pass
      have hLt : state.found.length < (pass key sources items state).found.length :=
        @visits_length_lt _ _ _ key sources items { state with grew := false } rfl hGrew
      omega
    | false =>
      rw [if_neg Bool.false_ne_true]
      exact hGrew

theorem passes_idle (hEnd : (passes key sources items (limit + 1) state).grew = false) :
  ∀ item ∈ items, key item ∈ (passes key sources items (limit + 1) state).reached ∨
      causes sources (passes key sources items (limit + 1) state).reached item = [] := by
  induction limit generalizing state with
  | zero =>
    unfold passes at hEnd ⊢
    dsimp only at hEnd ⊢
    cases hGrew : (pass key sources items state).grew with
    | true =>
      rw [hGrew, if_pos rfl] at hEnd
      unfold passes at hEnd
      rw [hGrew] at hEnd
      cases hEnd
    | false =>
      rw [if_neg Bool.false_ne_true]
      exact pass_idle hGrew
  | succ limit ih =>
    unfold passes at hEnd ⊢
    dsimp only at hEnd ⊢
    cases hGrew : (pass key sources items state).grew with
    | true =>
      rw [hGrew, if_pos rfl] at hEnd
      rw [if_pos rfl]
      exact ih hEnd
    | false =>
      rw [if_neg Bool.false_ne_true]
      exact pass_idle hGrew

theorem run_stable (seeds : List κ) (hItem : item ∈ items) :
  key item ∈ (run key sources items seeds).reached ∨ ∀ source ∈ sources item,
      source ∉ (run key sources items seeds).reached := by
  have hEnd : (run key sources items seeds).grew = false := by
    apply passes_grew (items.length + 1) sound_start
    simp
  rw [← causes_eq_nil_iff]
  exact passes_idle items.length hEnd item hItem

theorem isLeast_run : IsLeast
    {keys | Closed key sources items seeds keys}
    {found | found ∈ (run key sources items seeds).reached} := by
  have hSound : Sound key sources items seeds (run key sources items seeds) := run_sound
  constructor
  · constructor
    · intro seed hSeed
      change seed ∈ (run key sources items seeds).reached
      rw [hSound.reached_eq]
      exact mem_append_left _ hSeed
    · rintro item hItem ⟨source, hSrc, hReached⟩
      rcases run_stable seeds hItem with hFound | hNone
      · exact hFound
      · exact absurd hReached (hNone source hSrc)
  · intro keys hClosed found hFound
    exact hSound.least keys hClosed found hFound

end TsStack.PassClosure
