import TsStack.Lib.EventRun
import TsStack.Mandala.OwnerIndexKept

/-
  When no operation is in progress, the balances are those
  of the token rows, and every row is of a coin that the
  engine holds.
-/

-- What Is to Hold

open List

namespace TsStack.Mandala

open OwnerStorage

/-
  Each balance is what its identity owns, the coins that were credited and not debited are those
  of the rows, and the engine holds the coin of each row.
-/
structure Agreement (world : IndexWorld) : Prop where
  balance : ∀ identityKey, world.storage.balances.getOr identityKey =
        CoinLedger.total (world.storage.tokens.map rowCoin) identityKey
  credited : ∀ outpoint, world.credited.count outpoint = world.debited.count outpoint +
          (world.storage.tokens.map (·.outpoint)).count outpoint
  held : ∀ row ∈ world.storage.tokens, world.storage.holds row.outpoint = true

def MovedOnce (world : IndexWorld) : Prop :=
  ∀ outpoint, world.inserted.count outpoint ≤ 1 →
    world.credited.count outpoint ≤ 1 ∧ world.debited.count outpoint ≤ 1

-- The Invariant

structure IndexInvariant (facts : OutputFacts) (world : IndexWorld) : Prop where
  rows : RowsInvariant facts world.storage
  debits : ∀ operation ∈ world.operations, ∀ row evict, operation.call = .debit row evict →
        row = tokenRecord facts operation.outpoint
  repairs : ∀ operation ∈ world.operations, operation.call.ofRepair = true →
        journalAgrees facts operation.outpoint = true
  credited :
    ∀ outpoint, world.credited.count outpoint + pending world.operations Call.isCredit outpoint =
        world.inserted.count outpoint
  debited :
    ∀ outpoint, world.debited.count outpoint + pending world.operations Call.isDebit outpoint +
          world.storage.rowed.count outpoint =
        world.inserted.count outpoint
  balances : BalanceInvariant facts world.storage world.credited world.debited
  kept : ∀ outpoint ∈ world.storage.rowed, Kept world.storage world.operations outpoint

theorem IndexInvariant.initial (facts : OutputFacts) : IndexInvariant facts {} := by
  constructor
  case rows =>
    constructor
    case nodup => exact nodup_nil
    case record =>
      intro row hRow
      cases hRow
    case role =>
      intro row hRow
      cases hRow
  case debits =>
    intro operation hOp
    cases hOp
  case repairs =>
    intro operation hOp
    cases hOp
  case credited => exact fun _ => rfl
  case debited => exact fun _ => rfl
  case balances =>
    constructor
    case safe => exact fun _ => Nat.zero_le _
    case balance => exact fun _ => rfl
  case kept =>
    intro outpoint hOutpoint
    cases hOutpoint

section

variable
    {increment : Int → Int → Int} {facts : OutputFacts} {storage stored : OwnerStorage}
    {outpoint : TokenOutpoint} {call : Call} {next : Option Call}

theorem Effect.debit_next (hRows : RowsInvariant facts storage)
  (hEffect : Effect increment facts storage outpoint call (stored, next))
  {row : MandalaTokenRecord} {evict : Bool} (hNext : next = some (.debit row evict)) :
  row = tokenRecord facts outpoint := by
  cases hEffect with
  | insert => cases hNext
  | take evict _ hRow =>
    cases hNext
    rcases mem_of_tokenRow hRow with ⟨hMem, hOutpoint⟩
    have hRec := hRows.record _ hMem
    rw [hOutpoint] at hRec
    exact hRec
  | credit repair =>
    cases repair with
    | false => cases hNext
    | true => cases hNext
  | debit _ evict =>
    cases evict with
    | false => cases hNext
    | true => cases hNext
  | quiet _ _ _ hQuiet =>
    rw [hNext] at hQuiet
    cases hQuiet

theorem eq_of_nextIf {test : Bool} {first second : Call} (hNext : nextIf test first = some second) :
  test = true ∧ first = second := by
  cases test with
  | false => cases hNext
  | true => exact ⟨rfl, Option.some.inj hNext⟩

theorem ofRepair_next
  (hAgrees : call.ofRepair = true → journalAgrees facts outpoint = true) {other : Call}
  (hNext : (perform increment facts storage outpoint call).2 = some other)
  (hRepair : other.ofRepair = true) : journalAgrees facts outpoint = true := by
  cases call with
  | readOwner linked =>
    rcases eq_of_nextIf hNext with ⟨_, rfl⟩
    cases hRepair
  | storeRow =>
    unfold perform performStore at hNext
    dsimp only at hNext
    split at hNext
    · rcases eq_of_nextIf hNext with ⟨_, rfl⟩
      cases hRepair
    · cases hNext
  | credit repair =>
    rcases eq_of_nextIf hNext with ⟨rfl, _⟩
    exact hAgrees rfl
  | markSpent spendingTxid =>
    unfold perform at hNext
    dsimp only at hNext
    split at hNext
    · cases hNext
    · cases hNext
      cases hRepair
  | takeToken evict =>
    unfold perform performTake at hNext
    dsimp only at hNext
    split at hNext
    · cases hNext
      cases hRepair
    · cases hNext
      cases hRepair
  | debit row evict =>
    rcases eq_of_nextIf hNext with ⟨_, rfl⟩
    cases hRepair
  | takeAuthority evict =>
    rcases eq_of_nextIf hNext with ⟨_, rfl⟩
    cases hRepair
  | deleteOutput => cases hNext
  | inlineRow =>
    rcases eq_of_nextIf hNext with ⟨_, rfl⟩
    cases hRepair
  | inlineJournal =>
    cases hNext
    cases hRepair
  | inlineEngine journalled =>
    rcases eq_of_nextIf hNext with ⟨hTest, _⟩
    exact (Bool.and_eq_true_iff.mp hTest).2
  | listedEngine =>
    rcases eq_of_nextIf hNext with ⟨_, rfl⟩
    cases hRepair
  | listedRow =>
    rcases eq_of_nextIf hNext with ⟨_, rfl⟩
    cases hRepair
  | listedJournal =>
    rcases eq_of_nextIf hNext with ⟨hTest, _⟩
    exact (Bool.and_eq_true_iff.mp hTest).2
  | repair => exact hAgrees rfl
  | recheck => exact hAgrees rfl
  | takeBack => exact hAgrees rfl

theorem Effect.mem_rowed_of_ne
  (hEffect : Effect increment facts storage outpoint call (stored, next)) {other : TokenOutpoint}
  (hOther : outpoint ≠ other) (hMem : other ∈ stored.rowed) : other ∈ storage.rowed := by
  cases hEffect with
  | insert =>
    rcases List.mem_map.mp hMem with ⟨row, hRow, rfl⟩
    rcases mem_concat_iff.mp hRow with hOld | hNew
    · exact List.mem_map_of_mem hOld
    · rw [hNew] at hOther
      exact absurd rfl hOther
  | take =>
    rcases List.mem_map.mp hMem with ⟨row, hRow, rfl⟩
    exact List.mem_map_of_mem (mem_filter.mp hRow).1
  | credit => exact hMem
  | debit => exact hMem
  | quiet _ hTokens =>
    unfold rowed at hMem ⊢
    rw [hTokens] at hMem
    exact hMem

theorem BalanceInvariant.effect
  (hIncr : ExactWhereSafe increment) {credited debited : List TokenOutpoint}
  (hInv : BalanceInvariant facts storage credited debited) {others : List Operation}
  (hMeets : CallMeets facts storage others outpoint call)
  (hAgrees : call.ofRepair = true → journalAgrees facts outpoint = true)
  (hDebit : ∀ row evict, call = .debit row evict → row = tokenRecord facts outpoint)
  (hEffect : Effect increment facts storage outpoint call (stored, next)) :
  BalanceInvariant facts stored (recordIf call.isCredit outpoint credited)
    (recordIf call.isDebit outpoint debited) := by
  have hQuiet : call.isMove = false → recordIf call.isCredit outpoint credited = credited ∧
          recordIf call.isDebit outpoint debited =
            debited := by
    intro hMove
    rcases Bool.or_eq_false_iff.mp hMove with ⟨hCredit, hDebit⟩
    rw [hCredit, hDebit]
    exact ⟨rfl, rfl⟩
  cases hEffect with
  | insert _ hCall =>
    rw [(hQuiet hCall).1, (hQuiet hCall).2]
    exact hInv.congr rfl
  | take _ hCall =>
    rw [(hQuiet hCall).1, (hQuiet hCall).2]
    exact hInv.congr rfl
  | credit repair =>
    have hAmount : creditAmount facts outpoint repair = (facts.script outpoint).amount := by
      apply creditAmount_of_journalAgrees
      intro hRepair
      apply hAgrees
      rw [hRepair]
      rfl
    change SafeNumber (_ + ((creditAmount facts outpoint repair : Nat) : Int)) at hMeets
    rw [hAmount] at hMeets ⊢
    exact hInv.credit hIncr hMeets
  | debit row evict =>
    rw [hDebit row evict rfl] at hMeets ⊢
    exact hInv.debit hIncr hMeets
  | quiet hCall _ hBalances =>
    rw [(hQuiet hCall).1, (hQuiet hCall).2]
    exact hInv.congr hBalances

end

-- Steps and Runs

section

variable
    {increment : Int → Int → Int} {facts : OutputFacts} {world : IndexWorld}

variable
    {before after : List Operation} {operation : Operation}

theorem mem_operations_performIn {other : Operation}
  (hOther : other ∈ (performIn increment facts world before operation after).operations) :
  other ∈ before ++ operation :: after ∨ (other.outpoint = operation.outpoint ∧
      (perform increment facts world.storage
        operation.outpoint operation.call).2 = some other.call) := by
  change other ∈ before ++ following _ _ ++ after at hOther
  rw [append_assoc, mem_append, mem_append] at hOther
  rcases hOther with hLeft | hNew | hRight
  · exact .inl (mem_append_left _ hLeft)
  · rcases List.mem_map.mp hNew with ⟨call, hCall, rfl⟩
    rw [Option.mem_toList] at hCall
    exact .inr ⟨rfl, hCall⟩
  · exact .inl (mem_append_right _ (mem_cons_of_mem _ hRight))

theorem pending_performIn
  (hOps : world.operations = before ++ operation :: after) (kind : Call → Bool)
  (next : Option Call) (other : TokenOutpoint) :
  mark (kind operation.call) operation.outpoint other + pending
        (before ++ following operation.outpoint next ++ after) kind other =
    pending world.operations kind other + mark (next.any kind) operation.outpoint other := by
  rw [hOps, pending_append, pending_append, pending_append, pending_next]
  change _ = _ + pending ([operation] ++ after) _ _ + _
  rw [pending_append, pending_singleton]
  omega

theorem IndexInvariant.performIn
  (hIncr : ExactWhereSafe increment) (hInv : IndexInvariant facts world)
  (hOps : world.operations = before ++ operation :: after)
  (hMeets : CallMeets facts world.storage (before ++ after) operation.outpoint operation.call) :
  IndexInvariant facts (performIn increment facts world before operation after) := by
  have hMem : operation ∈ world.operations := by
    rw [hOps]
    exact mem_append_right _ mem_cons_self
  have hAgrees := hInv.repairs operation hMem
  have hEffect : Effect increment facts world.storage operation.outpoint operation.call
      (perform increment facts world.storage operation.outpoint operation.call) :=
    perform_effect hInv.rows.record hAgrees
  constructor
  case rows => exact hInv.rows.effect hEffect
  case debits =>
    intro other hOther row evict hCall
    rcases mem_operations_performIn hOther with hOld | ⟨hSame, hNext⟩
    · rw [← hOps] at hOld
      exact hInv.debits other hOld row evict hCall
    · rw [hSame]
      rw [hCall] at hNext
      exact hEffect.debit_next hInv.rows hNext
  case repairs =>
    intro other hOther hRepair
    rcases mem_operations_performIn hOther with hOld | ⟨hSame, hNext⟩
    · rw [← hOps] at hOld
      exact hInv.repairs other hOld hRepair
    · rw [hSame]
      exact ofRepair_next hAgrees hNext hRepair
  case credited =>
    intro other
    have hPending := pending_performIn hOps Call.isCredit
      (perform increment facts world.storage operation.outpoint operation.call).2 other
    have hOld := hInv.credited other
    unfold Mandala.performIn
    dsimp only
    rw [count_recordIf, count_recordIf]
    omega
  case debited =>
    intro other
    have hPending := pending_performIn hOps Call.isDebit
      (perform increment facts world.storage operation.outpoint operation.call).2 other
    have hRowed : (perform increment facts world.storage operation.outpoint
              operation.call).1.rowed.count other +
            mark ((perform increment facts world.storage
                operation.outpoint operation.call).2.any Call.isDebit)
              operation.outpoint other =
          world.storage.rowed.count other + mark ((perform increment facts world.storage
              operation.outpoint operation.call).2.any Call.isCredit)
            operation.outpoint other :=
      hEffect.count_rowed hInv.rows other
    have hOld := hInv.debited other
    unfold Mandala.performIn
    dsimp only
    rw [count_recordIf, count_recordIf]
    omega
  case balances =>
    exact hInv.balances.effect hIncr hMeets hAgrees
      (hInv.debits operation hMem) hEffect
  case kept =>
    intro other hOther
    by_cases hSame : operation.outpoint = other
    · subst hSame
      apply kept_perform _ hMeets hInv.rows hAgrees hOther
      intro hOld
      rw [← hOps]
      exact hInv.kept _ hOld
    · have hOld := hInv.kept other (hEffect.mem_rowed_of_ne hSame hOther)
      rw [hOps] at hOld
      apply Kept.insert (hOld.others fun hNot => absurd hNot hSame)
      · intro hHold
        rw [← hHold]
        exact holds_perform_of_ne operation.call hSame
      · intro added hAdded hOutpoint
        rcases List.mem_map.mp hAdded with ⟨_, _, rfl⟩
        exact absurd hOutpoint hSame

variable {storage : OwnerStorage}

theorem IndexInvariant.of_outputs
  (hInv : IndexInvariant facts world) (hTokens : storage.tokens = world.storage.tokens)
  (hBalances : storage.balances = world.storage.balances)
  (hHold : ∀ outpoint, world.storage.holds outpoint = true → storage.holds outpoint = true) :
  IndexInvariant facts { world with storage := storage } := by
  have hRowed : storage.rowed = world.storage.rowed := by
    unfold rowed
    rw [hTokens]
  constructor
  case rows =>
    constructor
    case nodup =>
      rw [hRowed]
      exact hInv.rows.nodup
    case record =>
      rw [hTokens]
      exact hInv.rows.record
    case role =>
      rw [hTokens]
      exact hInv.rows.role
  case debits => exact hInv.debits
  case repairs => exact hInv.repairs
  case credited => exact hInv.credited
  case debited =>
    intro outpoint
    rw [hRowed]
    exact hInv.debited outpoint
  case balances => exact hInv.balances.congr hBalances
  case kept =>
    intro outpoint hOutpoint
    rw [hRowed] at hOutpoint
    rcases hInv.kept outpoint hOutpoint with ⟨hHeld, hNone⟩ | hTaker
    · exact .inl ⟨hHold outpoint hHeld, hNone⟩
    · exact .inr hTaker

theorem holds_insertOutput {outpoint other : TokenOutpoint} (hHold : storage.holds other = true) :
  (insertOutput storage outpoint).holds other = true := by
  unfold insertOutput
  split_ifs
  · exact hHold
  · unfold holds at hHold ⊢
    dsimp only
    rw [any_append, hHold]
    rfl

/- An operation that begins has inserted nothing yet. -/
theorem IndexInvariant.start
  (hInv : IndexInvariant facts world) (hFst : operation.call.isFirst = true) : IndexInvariant facts
    { world with
      operations := world.operations ++ [operation] } := by
  have hCall : operation.call.isCredit = false ∧ operation.call.isDebit = false ∧
          operation.call.ofRepair = false ∧ operation.call.evicts = false := by
    cases hCall : operation.call
    all_goals rw [hCall] at hFst
    all_goals first
      | exact ⟨rfl, rfl, rfl, rfl⟩
      | cases hFst
  have hMem :
      ∀ other ∈ world.operations ++ [operation], other ∈ world.operations ∨ other = operation := by
    intro other hOther
    rcases mem_concat_iff.mp hOther with hOld | hNew
    · exact .inl hOld
    · exact .inr hNew
  constructor
  case rows => exact hInv.rows
  case debits =>
    intro other hOther row evict hDebit
    rcases hMem other hOther with hOld | rfl
    · exact hInv.debits other hOld row evict hDebit
    · have hNot := hCall.2.1
      rw [hDebit] at hNot
      cases hNot
  case repairs =>
    intro other hOther hRepair
    rcases hMem other hOther with hOld | rfl
    · exact hInv.repairs other hOld hRepair
    · rw [hCall.2.2.1] at hRepair
      cases hRepair
  case credited =>
    intro outpoint
    dsimp only
    rw [pending_append, pending_singleton, hCall.1, mark_false]
    exact hInv.credited outpoint
  case debited =>
    intro outpoint
    dsimp only
    rw [pending_append, pending_singleton, hCall.2.1, mark_false]
    exact hInv.debited outpoint
  case balances => exact hInv.balances
  case kept =>
    intro outpoint hOutpoint
    rcases hInv.kept outpoint hOutpoint with ⟨hHeld, hNone⟩ | ⟨other, hOther, hTaker⟩
    · left
      refine ⟨hHeld, ?_⟩
      intro other hOther hSame
      rcases hMem other hOther with hOld | rfl
      · exact hNone other hOld hSame
      · exact hCall.2.2.2
    · exact .inr ⟨other, mem_append_left _ hOther, hTaker⟩

theorem IndexInvariant.step (hIncr : ExactWhereSafe increment) (hInv : IndexInvariant facts world)
  {event : IndexEvent} {next : IndexWorld}
  (hStep : indexStep increment facts world event = some next) (hMeets : Meets facts world event) :
  IndexInvariant facts next := by
  cases event with
  | recordOwner outpoint =>
    cases hStep
    exact hInv.of_outputs rfl rfl fun _ => id
  | insertOutput outpoint =>
    cases hStep
    apply hInv.of_outputs
    · unfold insertOutput
      split_ifs
      · rfl
      · rfl
    · unfold insertOutput
      split_ifs
      · rfl
      · rfl
    · exact fun _ => holds_insertOutput
  | start operation =>
    unfold indexStep at hStep
    dsimp only at hStep
    split_ifs at hStep with hFst
    cases hStep
    exact hInv.start hFst
  | perform index =>
    unfold indexStep at hStep
    dsimp only at hStep
    cases hOp : world.operations[index]? with
    | none =>
      rw [hOp] at hStep
      cases hStep
    | some operation =>
      rw [hOp] at hStep
      cases hStep
      apply hInv.performIn hIncr _ (hMeets operation hOp)
      rcases List.getElem?_eq_some_iff.mp hOp with ⟨hIdx, rfl⟩
      rw [getElem_cons_drop, take_append_drop]

theorem pending_nil (kind : Call → Bool) (outpoint : TokenOutpoint) :
  pending [] kind outpoint = 0 := rfl

theorem Kept.held {outpoint : TokenOutpoint} (hKept : Kept storage [] outpoint) :
  storage.holds outpoint = true := by
  rcases hKept with ⟨hHeld, _⟩ | ⟨_, hOther, _⟩
  · exact hHeld
  · cases hOther

theorem IndexInvariant.movedOnce (hInv : IndexInvariant facts world) : MovedOnce world := by
  intro outpoint hOnce
  have hCredited := hInv.credited outpoint
  have hDebited := hInv.debited outpoint
  omega

theorem IndexInvariant.agreement
  (hInv : IndexInvariant facts world) (hQuiet : world.operations = []) : Agreement world := by
  have hCount : ∀ outpoint, world.credited.count outpoint = world.debited.count outpoint +
            world.storage.rowed.count outpoint := by
    intro outpoint
    have hCredited := hInv.credited outpoint
    have hDebited := hInv.debited outpoint
    rw [hQuiet, pending_nil] at hCredited hDebited
    omega
  constructor
  case balance =>
    intro identityKey
    have hPerm : world.credited.Perm (world.debited ++ world.storage.rowed) := by
      rw [perm_iff_count]
      intro outpoint
      rw [count_append]
      exact hCount outpoint
    have hTotal := CoinLedger.total_perm (hPerm.map (coinAt facts)) identityKey
    rw [map_append, CoinLedger.total_append] at hTotal
    have hCoins : world.storage.rowed.map (coinAt facts) = world.storage.tokens.map rowCoin := by
      unfold rowed
      rw [List.map_map]
      apply map_congr_left
      intro row hRow
      exact congrArg rowCoin (hInv.rows.record row hRow).symm
    rw [hCoins] at hTotal
    have hBal := hInv.balances.balance identityKey
    omega
  case credited => exact hCount
  case held =>
    intro row hRow
    have hKept := hInv.kept row.outpoint (List.mem_map_of_mem hRow)
    rw [hQuiet] at hKept
    exact hKept.held

end

/-
  In a run whose events all meet the condition, no amount is moved twice while its row is inserted
  once, and the index agrees with the engine when no operation is in progress.
-/
theorem owner_index_agreement
  (increment : Int → Int → Int) (hIncrement : ExactWhereSafe increment) (facts : OutputFacts)
  (events : List IndexEvent) (world : IndexWorld)
  (hRun : events.foldlM (indexStep increment facts) {} = some world)
  (hMeets :
    EventRun.Along (indexStep increment facts) (fun world event _ => Meets facts world event)
      {} events) :
  MovedOnce world ∧ (world.operations = [] → Agreement world) := by
  have hInvariant : IndexInvariant facts world := by
    apply EventRun.inv_of_along _ events (IndexInvariant.initial facts) hRun hMeets
    intro state event next hState hStep hEvent
    exact hState.step hIncrement hStep hEvent
  exact ⟨hInvariant.movedOnce, hInvariant.agreement⟩

-- A Late Admission

def ownedOutput : TokenOutpoint := ⟨[1], 0⟩

def outputOwner : JsString :=
  '0' :: '2' :: List.replicate 64 'a'

theorem five_le_maxSafeInteger : 5 ≤ maxSafeInteger := by
  decide

def ownedFacts : OutputFacts where
  script _ := ⟨.value, ['t'], 5, five_le_maxSafeInteger⟩
  journal _ := ⟨.value, ['t'], 5, outputOwner⟩

/-
  The output is inserted and its admission is notified, but
  the spender's judge finds no row yet, and repairs it.
-/
def repairedEarly : List IndexEvent :=
  [.recordOwner ownedOutput, .insertOutput ownedOutput, .start ⟨ownedOutput, .readOwner true⟩,
    .start ⟨ownedOutput, .inlineRow⟩] ++ List.replicate 6 (.perform 1)

/- The notification stores the row and credits it. -/
def admittedLate : List IndexEvent :=
  List.replicate 3 (.perform 0)

def spentBetween : List IndexEvent :=
  .start ⟨ownedOutput, .markSpent [2]⟩ :: List.replicate 3 (.perform 1)

def ownedWorld (spentBy : Option Bytes) (credited debited : List TokenOutpoint) : IndexWorld where
  storage :=
    { outputs := [⟨ownedOutput, spentBy⟩]
      owners := [ownedOutput]
      tokens := [tokenRecord ownedFacts ownedOutput]
      balances := [(outputOwner, 5)] }
  inserted := credited
  credited := credited
  debited := debited

theorem owner_index_agreement_repairedEarly :
  MovedOnce (ownedWorld none [ownedOutput] []) ∧
    ((ownedWorld none [ownedOutput] []).operations = [] →
      Agreement (ownedWorld none [ownedOutput] [])) :=
  owner_index_agreement (· + ·) (fun _ _ _ _ _ => rfl) ownedFacts
    (repairedEarly ++ admittedLate.take 2)
    (ownedWorld none [ownedOutput] [])
    (by decide +kernel) (by decide +kernel)

/-
  A notification after the spend inserts the row again, and
  credits the amount twice: no spend takes it.
-/
theorem owner_index_disagrees :
  ¬∀ (events : List IndexEvent) (world : IndexWorld),
    events.foldlM (indexStep (· + ·) ownedFacts) {} = some world →
      world.operations = [] → Agreement world := by
  intro hAgrees
  have hRun :
      (repairedEarly ++ spentBetween ++ admittedLate).foldlM (indexStep (· + ·) ownedFacts) {} =
        some (ownedWorld (some [2]) [ownedOutput, ownedOutput] [ownedOutput]) := by
    decide +kernel
  have hAgreement := hAgrees _ _ hRun rfl
  have hHeld := hAgreement.held (tokenRecord ownedFacts ownedOutput) List.mem_cons_self
  cases hHeld

end TsStack.Mandala
