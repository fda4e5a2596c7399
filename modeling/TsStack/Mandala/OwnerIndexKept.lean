import TsStack.Mandala.OwnerIndexEffect

/-
  The rows of the owner index that are kept: the engine
  holds the coin, and no eviction that is past its take will
  delete it, or an operation in progress will take the row.
-/

-- Kept Rows and the Condition

open List

namespace TsStack.Mandala

def Call.takes : Call → Bool
| .takeToken _ => true
| .credit true => true
| .recheck => true
| .takeBack => true
| _ => false

def Call.evicts : Call → Bool
| .debit _ true => true
| .takeAuthority true => true
| .deleteOutput => true
| _ => false

/- The row of an output is of a held coin, or is taken yet. -/
def Kept (storage : OwnerStorage) (operations : List Operation) (outpoint : TokenOutpoint) : Prop :=
  (storage.holds outpoint = true ∧ ∀ operation ∈ operations,
        operation.outpoint = outpoint → operation.call.evicts = false) ∨
    ∃ operation ∈ operations, operation.outpoint = outpoint ∧ operation.call.takes = true

instance
  (storage : OwnerStorage) (operations : List Operation) (outpoint : TokenOutpoint) :
  Decidable (Kept storage operations outpoint) :=
  inferInstanceAs (Decidable (_ ∨ _))

/-
  An admission inserts a row that is kept, a repair leaves
  one that is kept, and balances stay safe.
-/
def CallMeets (facts : OutputFacts) (storage : OwnerStorage) (others : List Operation)
  (outpoint : TokenOutpoint) : Call → Prop
| .storeRow =>
  (facts.script outpoint).role = .value →
    storage.tokenRow outpoint = none → Kept storage others outpoint
| .recheck =>
  storage.holds outpoint = true → storage.tokenRow outpoint ≠ none → Kept storage others outpoint
| .credit repair =>
  SafeNumber (storage.balances.getOr (facts.journal outpoint).identityKey +
      creditAmount facts outpoint repair)
| .debit row _ => SafeNumber (storage.balances.getOr row.identityKey - row.amount)
| _ => True

instance
  (facts : OutputFacts) (storage : OwnerStorage) (others : List Operation)
  (outpoint : TokenOutpoint) (call : Call) :
  Decidable (CallMeets facts storage others outpoint call) :=
  match call with
  | .storeRow => inferInstanceAs (Decidable (_ → _ → _))
  | .recheck => inferInstanceAs (Decidable (_ → _ → _))
  | .credit _ => inferInstanceAs (Decidable (SafeNumber _))
  | .debit _ _ => inferInstanceAs (Decidable (SafeNumber _))
  | .readOwner _ => isTrue trivial
  | .markSpent _ => isTrue trivial
  | .takeToken _ => isTrue trivial
  | .takeAuthority _ => isTrue trivial
  | .deleteOutput => isTrue trivial
  | .inlineRow => isTrue trivial
  | .inlineJournal => isTrue trivial
  | .inlineEngine _ => isTrue trivial
  | .listedEngine => isTrue trivial
  | .listedRow => isTrue trivial
  | .listedJournal => isTrue trivial
  | .repair => isTrue trivial
  | .takeBack => isTrue trivial

def Meets (facts : OutputFacts) (world : IndexWorld) : IndexEvent → Prop
| .perform index =>
  ∀ operation ∈ world.operations[index]?,
    CallMeets facts world.storage (world.operations.take index ++ world.operations.drop (index + 1))
      operation.outpoint operation.call
| _ => True

instance
  (facts : OutputFacts) (world : IndexWorld) (event : IndexEvent) :
  Decidable (Meets facts world event) :=
  match event with
  | .recordOwner _ => isTrue trivial
  | .insertOutput _ => isTrue trivial
  | .start _ => isTrue trivial
  | .perform index =>
    inferInstanceAs (Decidable (∀ operation ∈ world.operations[index]?, CallMeets _ _ _ _ _))

-- Kept Rows among Operations

section

variable
    {storage stored : OwnerStorage} {before after : List Operation} {operation : Operation}
    {outpoint : TokenOutpoint}

variable {call : Call}

theorem takes_of_evicts (hEvicts : call.evicts = true) : call.takes = false := by
  cases call
  all_goals first | rfl | cases hEvicts

theorem Kept.others (hKept : Kept storage (before ++ operation :: after) outpoint)
  (hTakes : operation.outpoint = outpoint → operation.call.takes = false) :
  Kept storage (before ++ after) outpoint := by
  have hMem : ∀ other ∈ before ++ after, other ∈ before ++ operation :: after := by
    intro other hOther
    rw [mem_append, mem_cons]
    rcases mem_append.mp hOther with hLeft | hRight
    · exact .inl hLeft
    · exact .inr (Or.inr hRight)
  rcases hKept with ⟨hHold, hEvicts⟩ | ⟨other, hOther, hSame, hTaker⟩
  · left
    exact ⟨hHold, fun other hOther => hEvicts other (hMem other hOther)⟩
  · right
    rw [mem_append, mem_cons] at hOther
    rcases hOther with hLeft | rfl | hRight
    · exact ⟨other, mem_append_left _ hLeft, hSame, hTaker⟩
    · rw [hTakes hSame] at hTaker
      cases hTaker
    · exact ⟨other, mem_append_right _ hRight, hSame, hTaker⟩

/- Beside an eviction past its take, a row is to be taken. -/
theorem Kept.taker (hKept : Kept storage (before ++ operation :: after) operation.outpoint)
  (hEvicts : operation.call.evicts = true) :
  ∃ other ∈ before ++ after, other.outpoint = operation.outpoint ∧ other.call.takes = true := by
  have hMem : operation ∈ before ++ operation :: after := mem_append_right _ mem_cons_self
  rcases hKept with ⟨_, hNone⟩ | ⟨other, hOther, hSame, hTaker⟩
  · have hNot := hNone operation hMem rfl
    rw [hEvicts] at hNot
    cases hNot
  · rw [mem_append, mem_cons] at hOther
    rcases hOther with hLeft | rfl | hRight
    · exact ⟨other, mem_append_left _ hLeft, hSame, hTaker⟩
    · rw [takes_of_evicts hEvicts] at hTaker
      cases hTaker
    · exact ⟨other, mem_append_right _ hRight, hSame, hTaker⟩

theorem Kept.of_taker
  (hTaker : ∃ other ∈ before ++ after, other.outpoint = outpoint ∧ other.call.takes = true)
  (added : List Operation) : Kept stored (before ++ added ++ after) outpoint := by
  rcases hTaker with ⟨other, hOther, hTakes⟩
  right
  refine ⟨other, ?_, hTakes⟩
  rw [append_assoc, mem_append, mem_append]
  rcases mem_append.mp hOther with hLeft | hRight
  · exact .inl hLeft
  · exact .inr (Or.inr hRight)

theorem Kept.insert (hKept : Kept storage (before ++ after) outpoint)
  (hHold : storage.holds outpoint = true → stored.holds outpoint = true) {added : List Operation}
  (hAdded : ∀ other ∈ added, other.outpoint = outpoint → other.call.evicts = false) :
  Kept stored (before ++ added ++ after) outpoint := by
  rcases hKept with ⟨hHeld, hNone⟩ | hTaker
  · left
    refine ⟨hHold hHeld, ?_⟩
    intro other hOther
    rw [append_assoc, mem_append, mem_append] at hOther
    rcases hOther with hLeft | hNew | hRight
    · exact hNone other (mem_append_left _ hLeft)
    · exact hAdded other hNew
    · exact hNone other (mem_append_right _ hRight)
  · exact Kept.of_taker hTaker added

theorem Kept.of_next (hTakes : call.takes = true) :
  Kept stored (before ++ following outpoint (some call) ++ after)
    outpoint := by
  right
  refine ⟨⟨outpoint, call⟩, ?_, rfl, hTakes⟩
  apply mem_append_left
  exact mem_append_right _ mem_cons_self

end

-- Kept Rows of a Call

theorem holds_congr {storage stored : OwnerStorage} (hOuts : stored.outputs = storage.outputs)
  (outpoint : TokenOutpoint) : stored.holds outpoint = storage.holds outpoint := by
  unfold OwnerStorage.holds
  rw [hOuts]

section

variable
    {increment : Int → Int → Int} {facts : OutputFacts} {storage : OwnerStorage}
    {outpoint other : TokenOutpoint}

theorem any_map_of_outpoint {outputs : List EngineOutput} {f : EngineOutput → EngineOutput}
  (hSame : ∀ output ∈ outputs, output.outpoint = other → f output = output)
  (hOutpoint : ∀ output, (f output).outpoint = output.outpoint) : ((outputs.map f).any fun output =>
      decide (output.outpoint = other) && decide (output.spentBy = none)) =
    outputs.any fun output =>
      decide (output.outpoint = other) && decide (output.spentBy = none) := by
  induction outputs with
  | nil => rfl
  | cons output outputs ih =>
    rw [map_cons, any_cons, any_cons, ih fun output hOut =>
      hSame output (mem_cons_of_mem _ hOut)]
    by_cases hOther : output.outpoint = other
    · rw [hSame output mem_cons_self hOther]
    · rw [hOutpoint, decide_eq_false hOther]
      rfl

theorem holds_markUTXOAsSpent {marked : OwnerStorage} {spendingTxid : Bytes}
  (hMark : markUTXOAsSpent storage outpoint spendingTxid = some marked)
  (hOther : outpoint ≠ other) : marked.holds other = storage.holds other := by
  unfold markUTXOAsSpent at hMark
  split at hMark
  · cases hMark
  · split at hMark
    · split_ifs at hMark
      rw [← Option.some.inj hMark]
    · rw [← Option.some.inj hMark]
      apply any_map_of_outpoint
      · intro output _ hOut
        rw [if_neg]
        rw [hOut]
        exact Ne.symm hOther
      · intro output
        split_ifs
        · rfl
        · rfl

theorem holds_deleteOutput (hOther : outpoint ≠ other) :
  (deleteOutput storage outpoint).holds other = storage.holds other := by
  unfold deleteOutput OwnerStorage.holds
  dsimp only
  rw [List.any_filter]
  congr 1
  funext output
  by_cases hOut : output.outpoint = other
  · rw [hOut, decide_eq_true (Ne.symm hOther)]
    rfl
  · rw [decide_eq_false hOut]
    simp

def Call.keepsOutputs : Call → Bool
| .markSpent _ => false
| .deleteOutput => false
| _ => true

theorem outputs_perform (hCall : call.keepsOutputs = true) :
  (perform increment facts storage outpoint call).1.outputs = storage.outputs := by
  cases call with
  | markSpent => cases hCall
  | deleteOutput => cases hCall
  | storeRow =>
    unfold perform performStore storeTokenIfAbsent storeAuthorityIfAbsent
    dsimp only
    split
    · split_ifs
      · rfl
      · rfl
    · split_ifs
      · rfl
      · rfl
  | repair =>
    unfold perform performRepair upsertToken upsertAuthority
    dsimp only
    split
    · split_ifs
      · rfl
      · rfl
    · split_ifs
      · rfl
      · rfl
  | takeToken evict =>
    unfold perform performTake
    dsimp only
    split
    · rfl
    · rfl
  | takeBack =>
    unfold perform performTakeBack
    dsimp only
    split
    · split
      · rfl
      · rfl
    · rfl
  | _ => rfl

theorem holds_perform_of_ne (call : Call) (hOther : outpoint ≠ other) :
  (perform increment facts storage outpoint call).1.holds other = storage.holds other := by
  by_cases hCall : call.keepsOutputs = true
  · exact holds_congr (outputs_perform hCall) other
  · cases call with
    | markSpent spendingTxid =>
      unfold perform
      dsimp only
      cases hMark : markUTXOAsSpent storage outpoint spendingTxid with
      | none => rfl
      | some marked => exact holds_markUTXOAsSpent hMark hOther
    | deleteOutput => exact holds_deleteOutput hOther
    | _ => exact absurd rfl hCall

end

theorem evicts_nextIf {test : Bool} (hCall : call.evicts = false) :
  (nextIf test call).any Call.evicts = false := by
  cases test with
  | false => rfl
  | true => exact hCall

theorem not_mem_rowed_removeToken (storage : OwnerStorage) (outpoint : TokenOutpoint) :
  outpoint ∉ (storage.removeToken outpoint).rowed := by
  intro hMem
  rcases List.mem_map.mp hMem with ⟨row, hRow, hOutpoint⟩
  have hNe := (mem_filter.mp hRow).2
  exact of_decide_eq_true hNe hOutpoint

theorem role_of_repair {facts : OutputFacts} {storage : OwnerStorage} {outpoint : TokenOutpoint}
  (hRows : RowsInvariant facts storage) (hAgrees : journalAgrees facts outpoint = true)
  (hPresent : outpoint ∈ storage.rowed) : (facts.journal outpoint).role = .value := by
  rcases List.mem_map.mp hPresent with ⟨row, hRow, rfl⟩
  exact (repairedToken_of_journalAgrees hAgrees).2.trans (hRows.role row hRow)

section

variable
    {increment : Int → Int → Int} {facts : OutputFacts} {storage stored : OwnerStorage}
    {before after : List Operation} {outpoint : TokenOutpoint}

theorem kept_of_same {next : Option Call}
  (hKept : Kept storage (before ++ ⟨outpoint, call⟩ :: after) outpoint)
  (hTakes : call.takes = false) (hOuts : stored.outputs = storage.outputs)
  (hNext : next.any Call.evicts = false) : Kept stored (before ++ following outpoint next ++ after)
    outpoint := by
  apply (hKept.others fun _ => hTakes).insert
  · rw [holds_congr hOuts]
    exact id
  · intro other hOther _
    rcases List.mem_map.mp hOther with ⟨call, hCall, rfl⟩
    rw [Option.mem_toList] at hCall
    rw [hCall] at hNext
    exact hNext

theorem kept_performStore (hKept :
    outpoint ∈ storage.rowed → Kept storage (before ++ ⟨outpoint, .storeRow⟩ :: after) outpoint)
  (hMeets : CallMeets facts storage (before ++ after) outpoint .storeRow)
  (hRows : RowsInvariant facts storage)
  (hPresent : outpoint ∈ (performStore facts storage outpoint).1.rowed) :
  Kept (performStore facts storage outpoint).1 (before ++
      following outpoint (performStore facts storage outpoint).2 ++ after)
    outpoint := by
  by_cases hOld : outpoint ∈ storage.rowed
  · rcases List.mem_map.mp hOld with ⟨row, hRow, hOutpoint⟩
    have hRole := hRows.role row hRow
    rw [hOutpoint] at hRole
    unfold performStore
    rw [hRole]
    rcases storeTokenIfAbsent_cases storage (tokenRecord facts outpoint) with ⟨hAbsent, _⟩ | hStore
    · exact absurd hOld (tokenRow_eq_none_iff.mp hAbsent)
    · dsimp only
      rw [hStore]
      exact kept_of_same (hKept hOld) rfl rfl rfl
  · have hAbsent := tokenRow_eq_none_iff.mpr hOld
    unfold performStore at hPresent ⊢
    cases hRole : (facts.script outpoint).role with
    | value =>
      dsimp only
      have hOth := hMeets hRole hAbsent
      rcases storeTokenIfAbsent_cases storage (tokenRecord facts outpoint) with
        ⟨_, hStore⟩ | hStore
      · rw [hStore]
        apply hOth.insert id
        intro other hOther _
        rw [mem_singleton.mp hOther]
        rfl
      · rw [hStore]
        apply hOth.insert id
        intro other hOther
        cases hOther
    | deploy =>
      rw [hRole] at hPresent
      unfold storeAuthorityIfAbsent at hPresent
      dsimp only at hPresent
      split_ifs at hPresent
      · exact absurd hPresent hOld
      · exact absurd hPresent hOld
    | authority =>
      rw [hRole] at hPresent
      unfold storeAuthorityIfAbsent at hPresent
      dsimp only at hPresent
      split_ifs at hPresent
      · exact absurd hPresent hOld
      · exact absurd hPresent hOld

theorem kept_performRepair (hKept :
    outpoint ∈ storage.rowed → Kept storage (before ++ ⟨outpoint, .repair⟩ :: after) outpoint)
  (hRows : RowsInvariant facts storage) (hAgrees : journalAgrees facts outpoint = true)
  (hPresent : outpoint ∈ (performRepair facts storage outpoint).1.rowed) :
  Kept (performRepair facts storage outpoint).1 (before ++ following outpoint
        (performRepair facts storage outpoint).2 ++ after)
    outpoint := by
  have hEffect : Effect (· + ·) facts storage outpoint .repair
      (performRepair facts storage outpoint) :=
    performRepair_effect hRows.record hAgrees
  have hRole := role_of_repair (hRows.effect hEffect) hAgrees hPresent
  unfold performRepair at hPresent ⊢
  rw [hRole] at hPresent ⊢
  dsimp only at hPresent ⊢
  have hSame : ∀ other ∈ storage.tokens, other.outpoint = (repairedToken facts outpoint).outpoint →
          other = repairedToken facts outpoint := by
    intro other hOther hOutpoint
    have hRec := hRows.record other hOther
    rw [hOutpoint] at hRec
    rw [(repairedToken_of_journalAgrees hAgrees).1]
    exact hRec
  rcases upsertToken_cases hSame with ⟨_, hStore⟩ | hStore
  · rw [hStore]
    exact Kept.of_next rfl
  · rw [hStore] at hPresent ⊢
    exact kept_of_same (hKept hPresent) rfl rfl rfl

theorem not_mem_rowed_performTake (evict : Bool) :
  outpoint ∉ (performTake storage outpoint evict).1.rowed := by
  unfold performTake
  cases hRow : storage.tokenRow outpoint with
  | some row => exact not_mem_rowed_removeToken _ _
  | none => exact tokenRow_eq_none_iff.mp hRow

theorem not_mem_rowed_performTakeBack
  (hRows : RowsInvariant facts storage) (hAgrees : journalAgrees facts outpoint = true) :
  outpoint ∉ (performTakeBack facts storage outpoint).1.rowed := by
  intro hPresent
  have hEffect : Effect (· + ·) facts storage outpoint
      .takeBack (performTakeBack facts storage outpoint) :=
    performTakeBack_effect
  have hRole := role_of_repair (hRows.effect hEffect) hAgrees hPresent
  unfold performTakeBack at hPresent
  rw [hRole] at hPresent
  dsimp only at hPresent
  cases hRow : storage.tokenRow outpoint with
  | some row =>
    rw [hRow] at hPresent
    exact not_mem_rowed_removeToken _ _ hPresent
  | none =>
    rw [hRow] at hPresent
    exact tokenRow_eq_none_iff.mp hRow hPresent

theorem kept_perform
  (hKept : outpoint ∈ storage.rowed → Kept storage (before ++ ⟨outpoint, call⟩ :: after) outpoint)
  (hMeets : CallMeets facts storage (before ++ after) outpoint call)
  (hRows : RowsInvariant facts storage)
  (hAgrees : call.ofRepair = true → journalAgrees facts outpoint = true)
  (hPresent : outpoint ∈ (perform increment facts storage outpoint call).1.rowed) :
  Kept (perform increment facts storage outpoint call).1 (before ++ following outpoint
        (perform increment facts storage outpoint call).2 ++
      after)
    outpoint := by
  cases call with
  | storeRow => exact kept_performStore hKept hMeets hRows hPresent
  | repair => exact kept_performRepair hKept hRows (hAgrees rfl) hPresent
  | credit repair =>
    cases repair with
    | false => exact kept_of_same (hKept hPresent) rfl rfl rfl
    | true => exact Kept.of_next rfl
  | markSpent spendingTxid =>
    unfold perform at hPresent ⊢
    dsimp only at hPresent ⊢
    cases hMark : markUTXOAsSpent storage outpoint spendingTxid with
    | none =>
      rw [hMark] at hPresent
      exact kept_of_same (hKept hPresent) rfl rfl rfl
    | some marked => exact Kept.of_next rfl
  | takeToken evict => exact absurd hPresent (not_mem_rowed_performTake evict)
  | debit row evict =>
    have hOld := hKept hPresent
    cases evict with
    | false => exact kept_of_same hOld rfl rfl rfl
    | true => exact Kept.of_taker (hOld.taker rfl) _
  | takeAuthority evict =>
    have hOld := hKept hPresent
    cases evict with
    | false => exact kept_of_same hOld rfl rfl rfl
    | true => exact Kept.of_taker (hOld.taker rfl) _
  | deleteOutput => exact Kept.of_taker ((hKept hPresent).taker rfl) _
  | recheck =>
    unfold perform
    dsimp only
    cases hHold : storage.holds outpoint with
    | false => exact Kept.of_next rfl
    | true =>
      have hRow : storage.tokenRow outpoint ≠ none := by
        intro hNone
        exact tokenRow_eq_none_iff.mp hNone hPresent
      apply (hMeets hHold hRow).insert id
      intro other hOther
      cases hOther
  | takeBack => exact absurd hPresent (not_mem_rowed_performTakeBack hRows (hAgrees rfl))
  | _ => exact kept_of_same (hKept hPresent) rfl rfl (by first | exact evicts_nextIf rfl | rfl)

end

end TsStack.Mandala
