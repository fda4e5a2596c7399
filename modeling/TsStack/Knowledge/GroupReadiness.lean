import Mathlib.Algebra.Order.Ring.Nat
import Mathlib.Data.List.Nodup
import Mathlib.Order.Bounds.Defs

/-
  Whole-group readiness in one context interval, as
  `ContextReadiness.groupReadiness` computes it.

  Positions are numbers, and a map that is read with a default
  is a function.  The work budget is left out: its exhaustion
  ends the whole evaluation.
-/

-- Plans

open List

namespace TsStack.Knowledge

inductive CheckStatus
| verified
| invalid
| unavailable

inductive BundleStatus
| verified
| invalid
| pending
deriving DecidableEq

structure Bundle where
  availableAt : Nat
  groups : List String
  proofs : List String

structure EvidenceGroupRequirement where
  id : String
  received : Nat
  receipts : List String
  enabled : Bool

/- The planner refuses duplicate ids of groups. -/
structure EvidenceWorkPlan where
  groups : List EvidenceGroupRequirement
  slots : String → List Bundle
  distinct : (groups.map (·.id)).Nodup

structure ContextReadiness where
  plan : EvidenceWorkPlan
  ledger : String → Option CheckStatus
  start : Nat
  stop : Nat
  never : Nat
  start_le : start ≤ stop
  stop_lt : stop < never

namespace ContextReadiness

variable (context : ContextReadiness) (groups : String → Nat) (optimistic : Bool)

def statusFrom (result : BundleStatus) : List String → BundleStatus
| [] => result
| key :: keys =>
  match context.ledger key with
  | some .invalid => .invalid
  | some .verified => statusFrom result keys
  | _ => statusFrom .pending keys

def status (bundle : Bundle) : BundleStatus :=
  context.statusFrom .verified bundle.proofs

def bundleAt (bundle : Bundle) : Nat :=
  let result := bundle.groups.foldl (fun result group => max result (groups group))
    (max context.start bundle.availableAt)
  if result > context.stop then context.never else result

def admits (bundle : Bundle) : Bool :=
  context.status bundle ≠ .invalid ∧ (optimistic ∨ context.status bundle = .verified)

def slotReadiness (slot : String) : Nat :=
  (context.plan.slots slot).foldl
    (fun minimum bundle =>
      if context.admits optimistic bundle then min minimum (context.bundleAt groups bundle)
      else minimum)
    context.never

def groupAt (group : EvidenceGroupRequirement) : Nat :=
  group.receipts.foldl
    (fun ready slot => max ready (context.slotReadiness groups optimistic slot))
    (max context.start group.received)

def initial (id : String) : Nat :=
  match context.plan.groups.find? (·.id = id) with
  | some group =>
    if group.enabled ∧ group.received ≤ context.stop then group.received else context.never
  | none => context.never

def next (id : String) : Nat :=
  match context.plan.groups.find? (·.id = id) with
  | some group =>
    if ¬group.enabled ∨ groups id = context.never then groups id
    else context.groupAt groups optimistic group
  | none => groups id

def iterations : Nat → (String → Nat) → Except String (String → Nat)
| 0, _ => .error "Group readiness did not converge within its bound"
| count + 1, result =>
  if context.plan.groups.all fun group => context.next result optimistic group.id = result group.id
  then .ok (context.next result optimistic)
  else iterations count (context.next result optimistic)

def groupReadiness : Except String (String → Nat) :=
  context.iterations optimistic (context.plan.groups.length + 1) context.initial

end ContextReadiness

-- Readiness

def Supports (context : ContextReadiness) (optimistic : Bool) (p : Nat)
  (members : Set EvidenceGroupRequirement) : Prop :=
  ∀ group ∈ members, group ∈ context.plan.groups ∧ group.enabled = true ∧ group.received ≤ p ∧
    ∀ slot ∈ group.receipts, ∃ bundle ∈ context.plan.slots slot,
      context.admits optimistic bundle = true ∧ bundle.availableAt ≤ p ∧
        ∀ id ∈ bundle.groups, ∃ other ∈ members, other.id = id

def ReadyBy (context : ContextReadiness) (optimistic : Bool) (group : EvidenceGroupRequirement)
  (p : Nat) : Prop :=
  context.start ≤ p ∧ p ≤ context.stop ∧
    ∃ members, group ∈ members ∧ Supports context optimistic p members

def Meets (context : ContextReadiness) (optimistic : Bool) (groups : String → Nat) (p : Nat)
  (group : EvidenceGroupRequirement) : Prop :=
  context.start ≤ p ∧ group.received ≤ p ∧
    ∀ slot ∈ group.receipts, ∃ bundle ∈ context.plan.slots slot,
      context.admits optimistic bundle = true ∧ bundle.availableAt ≤ p ∧
        ∀ id ∈ bundle.groups, groups id ≤ p

variable {context : ContextReadiness} {groups : String → Nat} {optimistic : Bool} {p n : Nat}
variable {group : EvidenceGroupRequirement}

theorem foldl_max_le_iff {α : Type} {f : α → Nat} {items : List α} {start : Nat} :
  items.foldl (fun result item => max result (f item)) start ≤ p ↔
    start ≤ p ∧ ∀ item ∈ items, f item ≤ p := by
  induction items generalizing start with
  | nil => simp
  | cons item items ih =>
    rw [foldl_cons, ih, max_le_iff, forall_mem_cons, and_assoc]

theorem bundleAt_le_iff {bundle : Bundle} (hStop : p ≤ context.stop) :
  context.bundleAt groups bundle ≤ p ↔
    context.start ≤ p ∧ bundle.availableAt ≤ p ∧ ∀ id ∈ bundle.groups, groups id ≤ p := by
  have hNever := context.stop_lt
  rw [← and_assoc, ← max_le_iff, ← foldl_max_le_iff]
  unfold ContextReadiness.bundleAt
  dsimp only
  split_ifs with hLate <;> omega

theorem slotReadiness_le_iff {slot : String} (hStop : p ≤ context.stop) :
  context.slotReadiness groups optimistic slot ≤ p ↔
    ∃ bundle ∈ context.plan.slots slot,
      context.admits optimistic bundle = true ∧ context.bundleAt groups bundle ≤ p := by
  have hFold : ∀ (bundles : List Bundle) (minimum : Nat), bundles.foldl
      (fun minimum bundle =>
        if context.admits optimistic bundle then min minimum (context.bundleAt groups bundle)
        else minimum) minimum ≤ p ↔
      minimum ≤ p ∨ ∃ bundle ∈ bundles,
        context.admits optimistic bundle = true ∧ context.bundleAt groups bundle ≤ p := by
    intro bundles
    induction bundles with
    | nil => simp
    | cons bundle bundles ih =>
      intro minimum
      rw [foldl_cons, ih]
      split_ifs with hAdmits
      · simp [hAdmits, or_assoc]
      · simp [hAdmits]
  have hNever := context.stop_lt
  unfold ContextReadiness.slotReadiness
  rw [hFold]
  exact or_iff_right (by omega)

theorem groupAt_le_iff (hStop : p ≤ context.stop) :
  context.groupAt groups optimistic group ≤ p ↔ Meets context optimistic groups p group := by
  unfold ContextReadiness.groupAt Meets
  rw [foldl_max_le_iff, max_le_iff, and_assoc]
  simp only [slotReadiness_le_iff hStop, bundleAt_le_iff hStop]
  constructor
  · rintro ⟨hStart, hRecv, hSlots⟩
    refine ⟨hStart, hRecv, fun slot hSlot => ?_⟩
    rcases hSlots slot hSlot with ⟨bundle, hBundle, hAdmits, -, hRest⟩
    exact ⟨bundle, hBundle, hAdmits, hRest⟩
  · rintro ⟨hStart, hRecv, hSlots⟩
    refine ⟨hStart, hRecv, fun slot hSlot => ?_⟩
    rcases hSlots slot hSlot with ⟨bundle, hBundle, hAdmits, hRest⟩
    exact ⟨bundle, hBundle, hAdmits, hStart, hRest⟩

-- Steps

def values (context : ContextReadiness) (optimistic : Bool) : Nat → String → Nat
| 0 => context.initial
| n + 1 => context.next (values context optimistic n) optimistic

section

variable (hGroup : group ∈ context.plan.groups)

include hGroup

theorem find_group : context.plan.groups.find? (·.id = group.id) = some group := by
  cases hFind : context.plan.groups.find? (·.id = group.id) with
  | none => simpa using find?_eq_none.mp hFind group hGroup
  | some other =>
    have hSame : other.id = group.id := by simpa using find?_some hFind
    rw [inj_on_of_nodup_map context.plan.distinct (mem_of_find?_eq_some hFind) hGroup
      hSame]

theorem values_zero : values context optimistic 0 group.id =
    if group.enabled ∧ group.received ≤ context.stop then group.received else context.never := by
  rw [values, ContextReadiness.initial, find_group hGroup]

theorem values_succ : values context optimistic (n + 1) group.id =
    if ¬group.enabled ∨ values context optimistic n group.id = context.never then
      values context optimistic n group.id
    else context.groupAt (values context optimistic n) optimistic group := by
  rw [values, ContextReadiness.next, find_group hGroup]

end

theorem values_of_unknown {id : String} (hUnknown : ∀ group ∈ context.plan.groups, group.id ≠ id) :
  values context optimistic n id = context.never := by
  have hFind : context.plan.groups.find? (·.id = id) = none := by simpa using hUnknown
  induction n with
  | zero => rw [values, ContextReadiness.initial, hFind]
  | succ n ih => rw [values, ContextReadiness.next, hFind, ih]

theorem enabled_of_values_le (hGroup : group ∈ context.plan.groups) (hStop : p ≤ context.stop)
  (hLe : values context optimistic n group.id ≤ p) : group.enabled = true := by
  have hNever := context.stop_lt
  induction n with
  | zero =>
    rw [values_zero hGroup] at hLe
    split_ifs at hLe with hEnabled
    · exact hEnabled.1
    · omega
  | succ n ih =>
    rw [values_succ hGroup] at hLe
    split_ifs at hLe with hKept
    · exact ih hLe
    · exact Bool.not_eq_false _ ▸ fun hFalse => hKept (.inl (by simp [hFalse]))

theorem Meets.imp {later : String → Nat} (hMeets : Meets context optimistic groups p group)
  (hImp : ∀ id, groups id ≤ p → later id ≤ p) : Meets context optimistic later p group := by
  rcases hMeets with ⟨hStart, hRecv, hSlots⟩
  refine ⟨hStart, hRecv, fun slot hSlot => ?_⟩
  rcases hSlots slot hSlot with ⟨bundle, hBundle, hAdmits, hAvail, hGroups⟩
  exact ⟨bundle, hBundle, hAdmits, hAvail, fun id hId => hImp id (hGroups id hId)⟩

theorem meets_of_values_le (hGroup : group ∈ context.plan.groups) (hStop : p ≤ context.stop)
  (hLe : values context optimistic (n + 1) group.id ≤ p) :
  Meets context optimistic (values context optimistic n) p group := by
  have hNever := context.stop_lt
  have hEnabled := enabled_of_values_le hGroup hStop hLe
  rw [values_succ hGroup] at hLe
  split_ifs at hLe with hKept
  · rcases hKept with hDisabled | hLost
    · exact absurd hEnabled hDisabled
    · omega
  · exact (groupAt_le_iff hStop).mp hLe

theorem values_le_of_groups {m : Nat}
  (hGroups : ∀ group ∈ context.plan.groups, values context optimistic m group.id ≤ p →
    values context optimistic n group.id ≤ p) {id : String}
  (hLe : values context optimistic m id ≤ p) : values context optimistic n id ≤ p := by
  by_cases hKnown : ∃ group ∈ context.plan.groups, group.id = id
  · rcases hKnown with ⟨group, hGroup, rfl⟩
    exact hGroups group hGroup hLe
  · rw [values_of_unknown (by simpa using hKnown)] at hLe ⊢
    exact hLe

/- A position that a group has reached is one that it had reached before. -/
theorem values_le_of_succ {id : String} (hStop : p ≤ context.stop)
  (hLe : values context optimistic (n + 1) id ≤ p) : values context optimistic n id ≤ p := by
  have hNever := context.stop_lt
  induction n generalizing id with
  | zero =>
    refine values_le_of_groups (fun group hGroup hLe => ?_) hLe
    have hEnabled := enabled_of_values_le hGroup hStop hLe
    have hRecv := (meets_of_values_le hGroup hStop hLe).2.1
    rw [values_zero hGroup, if_pos ⟨hEnabled, hRecv.trans hStop⟩]
    exact hRecv
  | succ n ih =>
    refine values_le_of_groups (fun group hGroup hLe => ?_) hLe
    have hEnabled := enabled_of_values_le hGroup hStop hLe
    have hMeets := (meets_of_values_le hGroup hStop hLe).imp fun _ => ih
    by_cases hLost : values context optimistic n group.id = context.never
    · have hLater : values context optimistic (n + 1) group.id = context.never := by
        rw [values_succ hGroup, if_pos (.inr hLost), hLost]
      rw [values_succ hGroup, if_pos (.inr hLater), hLater] at hLe
      omega
    · rw [values_succ hGroup, if_neg (by simp [hEnabled, hLost])]
      exact (groupAt_le_iff hStop).mpr hMeets

theorem values_succ_le_iff (hGroup : group ∈ context.plan.groups) (hStop : p ≤ context.stop) :
  values context optimistic (n + 1) group.id ≤ p ↔ values context optimistic n group.id ≤ p ∧
    Meets context optimistic (values context optimistic n) p group := by
  have hNever := context.stop_lt
  refine ⟨fun hLe => ⟨values_le_of_succ hStop hLe, meets_of_values_le hGroup hStop hLe⟩, ?_⟩
  rintro ⟨hLe, hMeets⟩
  have hEnabled := enabled_of_values_le hGroup hStop hLe
  rw [values_succ hGroup, if_neg (by simp only [hEnabled, not_true, false_or]; omega)]
  exact (groupAt_le_iff hStop).mpr hMeets

-- Convergence

def reached (context : ContextReadiness) (optimistic : Bool) (n p : Nat) :
  List EvidenceGroupRequirement :=
  context.plan.groups.filter fun group => values context optimistic n group.id ≤ p

def Settled (context : ContextReadiness) (optimistic : Bool) (n p : Nat) : Prop :=
  ∀ id, values context optimistic n id ≤ p → values context optimistic (n + 1) id ≤ p

theorem Settled.succ (hSettle : Settled context optimistic n p) (hStop : p ≤ context.stop) :
  Settled context optimistic (n + 1) p := by
  intro id
  apply values_le_of_groups
  intro group hGroup hLe
  exact (values_succ_le_iff hGroup hStop).mpr
    ⟨hLe, (meets_of_values_le hGroup hStop hLe).imp hSettle⟩

theorem reached_succ_sublist (hStop : p ≤ context.stop) :
  (reached context optimistic (n + 1) p).Sublist (reached context optimistic n p) := by
  apply monotone_filter_right
  intro group hLe
  exact decide_eq_true (values_le_of_succ hStop (of_decide_eq_true hLe))

theorem settled_or_lost (hStop : p ≤ context.stop) (n : Nat) : Settled context optimistic n p ∨
  (reached context optimistic (n + 1) p).length + n + 1 ≤ context.plan.groups.length := by
  have hLoses : ∀ n, Settled context optimistic n p ∨
      (reached context optimistic (n + 1) p).length < (reached context optimistic n p).length := by
    intro n
    have hSub := @reached_succ_sublist context optimistic p n hStop
    refine (Nat.lt_or_ge _ _).symm.imp_left fun hLen id => ?_
    have hSame := hSub.eq_of_length_le hLen
    apply values_le_of_groups
    intro group hGroup hLe
    have hIn : group ∈ reached context optimistic n p :=
      mem_filter.mpr ⟨hGroup, decide_eq_true hLe⟩
    rw [← hSame] at hIn
    exact of_decide_eq_true (mem_filter.mp hIn).2
  induction n with
  | zero =>
    refine (hLoses 0).imp_right fun hLess => ?_
    have hAll := length_filter_le (fun group => values context optimistic 0 group.id ≤ p)
      context.plan.groups
    unfold reached at hLess ⊢
    omega
  | succ n ih =>
    rcases ih with hSettle | hLost
    · exact .inl (hSettle.succ hStop)
    · exact (hLoses (n + 1)).imp_right fun hLess => by omega

theorem received_le (hGroup : group ∈ context.plan.groups) (hStop : p ≤ context.stop)
  (hLe : values context optimistic n group.id ≤ p) : group.received ≤ p := by
  have hNever := context.stop_lt
  cases n with
  | zero =>
    rw [values_zero hGroup] at hLe
    split_ifs at hLe <;> omega
  | succ n => exact (meets_of_values_le hGroup hStop hLe).2.1

theorem groupAt_le_stop_or (hRecv : group.received ≤ context.stop) :
  context.groupAt groups optimistic group ≤ context.stop ∨
    context.groupAt groups optimistic group = context.never := by
  have hStart := context.start_le
  have hNever := context.stop_lt
  have hSlot : ∀ slot, context.slotReadiness groups optimistic slot ≤ context.stop ∨
      context.slotReadiness groups optimistic slot = context.never := by
    intro slot
    unfold ContextReadiness.slotReadiness ContextReadiness.bundleAt
    refine foldlRecOn (motive := fun minimum =>
      minimum ≤ context.stop ∨ minimum = context.never) _ _ (.inr rfl) fun _ hMin bundle _ => ?_
    dsimp only
    split_ifs <;> omega
  unfold ContextReadiness.groupAt
  refine foldlRecOn (motive := fun ready => ready ≤ context.stop ∨ ready = context.never) _ _
    (.inl (max_le hStart hRecv)) fun ready hReady slot _ => ?_
  have hValue := hSlot slot
  omega

theorem values_le_stop_or (hGroup : group ∈ context.plan.groups) (n : Nat) :
  values context optimistic n group.id ≤ context.stop ∨
    values context optimistic n group.id = context.never := by
  induction n with
  | zero =>
    rw [values_zero hGroup]
    split_ifs with hEnabled
    · exact .inl hEnabled.2
    · exact .inr rfl
  | succ n ih =>
    rw [values_succ hGroup]
    split_ifs with hKept
    · exact ih
    · have hLe := ih.resolve_right fun hLost => hKept (.inr hLost)
      exact groupAt_le_stop_or (received_le hGroup (le_refl _) hLe)

theorem values_eq_of_settled (hSettle : ∀ p ≤ context.stop, Settled context optimistic n p)
  (hGroup : group ∈ context.plan.groups) :
  values context optimistic (n + 1) group.id = values context optimistic n group.id := by
  have hNever := context.stop_lt
  rcases @values_le_stop_or _ optimistic _ hGroup (n + 1) with hLe | hLost
  · have hPre := values_le_of_succ hLe (le_refl _)
    exact Nat.le_antisymm (hSettle _ (hPre.trans hLe) _ (le_refl _)) hPre
  · rcases @values_le_stop_or _ optimistic _ hGroup n with hLe | hPre
    · have hLater := hSettle _ hLe _ (le_refl _)
      omega
    · exact hLost.trans hPre.symm

theorem iterations_spec {count : Nat} (hCount : n + count = context.plan.groups.length) :
  ∃ m, context.iterations optimistic (count + 1) (values context optimistic n) =
      .ok (values context optimistic (m + 1)) ∧
    ∀ group ∈ context.plan.groups,
      values context optimistic (m + 1) group.id = values context optimistic m group.id := by
  induction count generalizing n with
  | zero =>
    have hSame : ∀ group ∈ context.plan.groups,
        values context optimistic (n + 1) group.id = values context optimistic n group.id := by
      intro group hGroup
      refine values_eq_of_settled (fun p hStop => ?_) hGroup
      exact (settled_or_lost hStop n).resolve_right (by omega)
    refine ⟨n, ?_, hSame⟩
    exact if_pos (List.all_eq_true.mpr fun group hGroup => decide_eq_true (hSame group hGroup))
  | succ count ih =>
    unfold ContextReadiness.iterations
    split_ifs with hSame
    · refine ⟨n, rfl, fun group hGroup => ?_⟩
      exact of_decide_eq_true (List.all_eq_true.mp hSame group hGroup)
    · exact ih (n := n + 1) (by omega)

/- What a settled round has reached is what supports itself. -/
theorem readyBy_iff (hFixed : ∀ group ∈ context.plan.groups,
    values context optimistic (n + 1) group.id = values context optimistic n group.id)
  (hGroup : group ∈ context.plan.groups) (hStart : context.start ≤ p) (hStop : p ≤ context.stop) :
  ReadyBy context optimistic group p ↔ values context optimistic (n + 1) group.id ≤ p := by
  have hNever := context.stop_lt
  constructor
  · rintro ⟨-, -, members, hIn, hSupports⟩
    have hReached : ∀ m, ∀ member ∈ members, values context optimistic m member.id ≤ p := by
      intro m
      induction m with
      | zero =>
        intro member hMem
        rcases hSupports member hMem with ⟨hKnown, hEnabled, hRecv, -⟩
        rw [values_zero hKnown, if_pos ⟨hEnabled, hRecv.trans hStop⟩]
        exact hRecv
      | succ m ih =>
        intro member hMem
        rcases hSupports member hMem with ⟨hKnown, -, hRecv, hSlots⟩
        refine (values_succ_le_iff hKnown hStop).mpr ⟨ih member hMem, hStart, hRecv, ?_⟩
        intro slot hSlot
        rcases hSlots slot hSlot with ⟨bundle, hBundle, hAdmits, hAvail, hGroups⟩
        refine ⟨bundle, hBundle, hAdmits, hAvail, fun id hId => ?_⟩
        rcases hGroups id hId with ⟨other, hOther, rfl⟩
        exact ih other hOther
    exact hReached (n + 1) group hIn
  · intro hLe
    refine ⟨hStart, hStop, { member | member ∈ context.plan.groups ∧
      values context optimistic (n + 1) member.id ≤ p }, ⟨hGroup, hLe⟩, ?_⟩
    rintro member ⟨hKnown, hMem⟩
    rcases meets_of_values_le hKnown hStop hMem with ⟨-, hRecv, hSlots⟩
    refine ⟨hKnown, enabled_of_values_le hKnown hStop hMem, hRecv, fun slot hSlot => ?_⟩
    rcases hSlots slot hSlot with ⟨bundle, hBundle, hAdmits, hAvail, hGroups⟩
    refine ⟨bundle, hBundle, hAdmits, hAvail, fun id hId => ?_⟩
    have hReached := hGroups id hId
    by_cases hOther : ∃ other ∈ context.plan.groups, other.id = id
    · rcases hOther with ⟨other, hOther, rfl⟩
      rw [← hFixed other hOther] at hReached
      exact ⟨other, ⟨hOther, hReached⟩, rfl⟩
    · rw [values_of_unknown (by simpa using hOther)] at hReached
      omega

/-
  The iteration ends within its bound, and gives a group the least position by which it is in
  a set of groups that support each other, or never.
-/
theorem groupReadiness_isLeast (context : ContextReadiness) (optimistic : Bool) :
  ∃ result, context.groupReadiness optimistic = .ok result ∧ ∀ group ∈ context.plan.groups,
    IsLeast { p | ReadyBy context optimistic group p } (result group.id) ∨
      result group.id = context.never ∧ ¬∃ p, ReadyBy context optimistic group p := by
  have hNever := context.stop_lt
  rcases @iterations_spec context optimistic 0 _ (Nat.zero_add _) with ⟨m, hRun, hFixed⟩
  refine ⟨_, hRun, fun group hGroup => ?_⟩
  rcases @values_le_stop_or _ optimistic _ hGroup (m + 1) with hLe | hLost
  · have hStart := (meets_of_values_le hGroup hLe (le_refl _)).1
    refine .inl ⟨(readyBy_iff hFixed hGroup hStart hLe).mpr (le_refl _), fun p hReady => ?_⟩
    exact (readyBy_iff hFixed hGroup hReady.1 hReady.2.1).mp hReady
  · refine .inr ⟨hLost, ?_⟩
    rintro ⟨p, hReady⟩
    have hLe := (readyBy_iff hFixed hGroup hReady.1 hReady.2.1).mp hReady
    have hStop := hReady.2.1
    omega

-- Evidence that arrives

/- The context with checks that are done later; a check that has been decided stays. -/
def ContextReadiness.learn (context : ContextReadiness) (checks : String → Option CheckStatus) :
  ContextReadiness :=
  { context with
    ledger := fun key =>
      match context.ledger key with
      | some .verified => some .verified
      | some .invalid => some .invalid
      | _ => checks key }

section

variable {context later : ContextReadiness} {early late : Bool} {bundle : Bundle}

theorem statusFrom_eq_invalid_iff {result : BundleStatus} {keys : List String}
  (hResult : result ≠ .invalid) : context.statusFrom result keys = .invalid ↔
    ∃ key ∈ keys, context.ledger key = some .invalid := by
  induction keys generalizing result with
  | nil => simpa [ContextReadiness.statusFrom] using hResult
  | cons key keys ih =>
    simp only [ContextReadiness.statusFrom, mem_cons, exists_eq_or_imp]
    split
    · simp [*]
    · simp [*]
    · rename_i hNot _
      rw [ih (by simp)]
      exact (or_iff_right hNot).symm

theorem statusFrom_eq_verified_iff {result : BundleStatus} {keys : List String} :
  context.statusFrom result keys = .verified ↔
    result = .verified ∧ ∀ key ∈ keys, context.ledger key = some .verified := by
  induction keys generalizing result with
  | nil => simp [ContextReadiness.statusFrom]
  | cons key keys ih =>
    rw [ContextReadiness.statusFrom, forall_mem_cons]
    split <;> simp_all

theorem admits_iff {optimistic : Bool} : context.admits optimistic bundle = true ↔
  (∀ key ∈ bundle.proofs, context.ledger key ≠ some .invalid) ∧
    (optimistic = true ∨ ∀ key ∈ bundle.proofs, context.ledger key = some .verified) := by
  unfold ContextReadiness.admits ContextReadiness.status
  rw [decide_eq_true_eq, Ne, statusFrom_eq_invalid_iff (by simp), statusFrom_eq_verified_iff]
  simp

/- The more bundles are admissible, the earlier a group is ready. -/
theorem readiness_le (hPlan : later.plan = context.plan) (hStart : later.start = context.start)
  (hStop : later.stop = context.stop) (hNever : later.never = context.never)
  (hAdmits : ∀ bundle, later.admits late bundle = true → context.admits early bundle = true) :
  ∃ first second, context.groupReadiness early = .ok first ∧
    later.groupReadiness late = .ok second ∧
      ∀ group ∈ context.plan.groups, first group.id ≤ second group.id := by
  have hLess := context.stop_lt
  rcases @iterations_spec context early 0 _ (Nat.zero_add _) with ⟨m, hRun, hFixed⟩
  rcases @iterations_spec later late 0 _ (Nat.zero_add _) with ⟨n, hLater, hSettled⟩
  refine ⟨_, _, hRun, hLater, fun group hGroup => ?_⟩
  have hKnown : group ∈ later.plan.groups := hPlan ▸ hGroup
  rcases @values_le_stop_or _ late _ hKnown (n + 1) with hLe | hLost
  · have hReady := (readyBy_iff hSettled hKnown
      (meets_of_values_le hKnown hLe (le_refl _)).1 hLe).mpr (le_refl _)
    rcases hReady with ⟨hFrom, hTo, members, hIn, hSupports⟩
    rw [hStart] at hFrom
    rw [hStop] at hTo
    refine (readyBy_iff hFixed hGroup hFrom hTo).mp ⟨hFrom, hTo, members, hIn, ?_⟩
    intro member hMem
    rcases hSupports member hMem with ⟨hMember, hEnabled, hReceived, hSlots⟩
    rw [hPlan] at hMember hSlots
    refine ⟨hMember, hEnabled, hReceived, fun slot hSlot => ?_⟩
    rcases hSlots slot hSlot with ⟨bundle, hBundle, hAdmitted, hRest⟩
    exact ⟨bundle, hBundle, hAdmits bundle hAdmitted, hRest⟩
  · rw [hLost, hNever]
    rcases @values_le_stop_or _ early _ hGroup (m + 1) with hLe | hSame
    · omega
    · exact hSame.le

end

/-
  The readings bracket the position of every group: evidence that arrives makes the optimistic
  one no earlier and the verified one no later, and they do not cross.
-/
theorem readings_bracket (context : ContextReadiness) (checks : String → Option CheckStatus) :
  ∃ low lowLater highLater high, context.groupReadiness true = .ok low ∧
    (context.learn checks).groupReadiness true = .ok lowLater ∧
      (context.learn checks).groupReadiness false = .ok highLater ∧
        context.groupReadiness false = .ok high ∧ ∀ group ∈ context.plan.groups,
          low group.id ≤ lowLater group.id ∧ lowLater group.id ≤ highLater group.id ∧
            highLater group.id ≤ high group.id := by
  have hOptimistic := @readiness_le context (context.learn checks) true true rfl rfl rfl rfl
    fun bundle hAdmits => admits_iff.mpr ⟨fun key hKey hInvalid =>
      (admits_iff.mp hAdmits).1 key hKey (by simp [ContextReadiness.learn, hInvalid]), .inl rfl⟩
  have hBoth := @readiness_le (context.learn checks) (context.learn checks) true false
    rfl rfl rfl rfl fun bundle hAdmits => admits_iff.mpr ⟨(admits_iff.mp hAdmits).1, .inl rfl⟩
  have hVerified := @readiness_le (context.learn checks) context false false rfl rfl rfl rfl
    fun bundle hAdmits => by
      have hAll := (admits_iff.mp hAdmits).2.resolve_left (by simp)
      have hKept : ∀ key ∈ bundle.proofs,
          (context.learn checks).ledger key = some .verified := by
        intro key hKey
        simp [ContextReadiness.learn, hAll key hKey]
      exact admits_iff.mpr ⟨fun key hKey => by simp [hKept key hKey], .inr hKept⟩
  rcases hOptimistic with ⟨low, lowLater, hLow, hLowLater, hFirst⟩
  rcases hBoth with ⟨_, highLater, hSame, hHighLater, hSecond⟩
  rcases hVerified with ⟨_, high, hEqual, hHigh, hThird⟩
  cases hLowLater.symm.trans hSame
  cases hHighLater.symm.trans hEqual
  exact ⟨low, lowLater, highLater, high, hLow, hLowLater, hHighLater, hHigh, fun group hGroup =>
    ⟨hFirst group hGroup, hSecond group hGroup, hThird group hGroup⟩⟩

end TsStack.Knowledge
