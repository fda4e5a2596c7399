import TsStack.Mandala.OwnerIndex

/-
  What a call of the owner index does to the token rows and
  the balances.

  A row is inserted by a call whose next one credits it, and
  is taken by a call whose next one debits it.
-/

-- The Effect of a Call

open List

namespace TsStack.Mandala

open OwnerStorage

def Call.ofRepair : Call → Bool
| .repair => true
| .credit true => true
| .recheck => true
| .takeBack => true
| _ => false

def OwnerStorage.rowed (storage : OwnerStorage) : List TokenOutpoint :=
  storage.tokens.map (·.outpoint)

/- A call that moves neither a row nor a balance. -/
def Call.isMove (call : Call) : Bool :=
  call.isCredit || call.isDebit

inductive Effect (increment : Int → Int → Int) (facts : OutputFacts) (storage : OwnerStorage)
  (outpoint : TokenOutpoint) :
  Call → OwnerStorage × Option Call → Prop where
| insert
    {call : Call} (repair : Bool) (hCall : call.isMove = false)
    (hAbsent : storage.tokenRow outpoint = none) (hRole : (facts.script outpoint).role = .value) :
    Effect increment facts storage outpoint call ({ storage with
        tokens := storage.tokens ++ [tokenRecord facts outpoint] },
        some (.credit repair))
| take
    {call : Call} {row : MandalaTokenRecord} (evict : Bool) (hCall : call.isMove = false)
    (hRow : storage.tokenRow outpoint = some row) :
    Effect increment facts storage outpoint call
      (storage.removeToken outpoint, some (.debit row evict))
| credit
    (repair : Bool) :
    Effect increment facts storage outpoint (.credit repair)
      (storage.adjustBalance increment (facts.journal outpoint).identityKey
          (creditAmount facts outpoint repair),
        nextIf repair .recheck)
| debit
    (row : MandalaTokenRecord) (evict : Bool) :
    Effect increment facts storage outpoint (.debit row evict)
      (storage.adjustBalance increment row.identityKey (-row.amount), afterRow evict)
| quiet
    {call : Call} {stored : OwnerStorage} {next : Option Call} (hCall : call.isMove = false)
    (hTokens : stored.tokens = storage.tokens) (hBalances : stored.balances = storage.balances)
    (hNext : next.any Call.isMove = false) :
    Effect increment facts storage outpoint call (stored, next)

theorem nextIf_isMove {test : Bool} {call : Call} (hCall : call.isMove = false) :
  (nextIf test call).any Call.isMove = false := by
  cases test with
  | false => rfl
  | true => exact hCall

theorem afterRow_isMove (evict : Bool) : (afterRow evict).any Call.isMove = false :=
  nextIf_isMove rfl

variable
    {storage : OwnerStorage} {outpoint : TokenOutpoint}

theorem mem_of_tokenRow {row : MandalaTokenRecord} (hRow : storage.tokenRow outpoint = some row) :
  row ∈ storage.tokens ∧ row.outpoint = outpoint := by
  constructor
  · exact mem_of_find?_eq_some hRow
  · simpa using find?_some hRow

theorem tokenRow_eq_none_iff {outpoint : TokenOutpoint} :
  storage.tokenRow outpoint = none ↔ outpoint ∉ storage.rowed := by
  unfold tokenRow rowed
  rw [find?_eq_none, List.mem_map]
  constructor
  · rintro hNone ⟨row, hRow, hOutpoint⟩
    exact hNone row hRow (by simpa using hOutpoint)
  · intro hNone row hRow hOutpoint
    exact hNone ⟨row, hRow, by simpa using hOutpoint⟩

theorem repairedToken_of_journalAgrees
  {facts : OutputFacts} (hAgrees : journalAgrees facts outpoint = true) :
  repairedToken facts outpoint = tokenRecord facts outpoint ∧
    (facts.journal outpoint).role = (facts.script outpoint).role := by
  unfold journalAgrees sameAmount at hAgrees
  simp only [Bool.and_eq_true, decide_eq_true_eq, beq_iff_eq] at hAgrees
  rcases hAgrees with ⟨⟨⟨hToken, hRole⟩, _, hAmount⟩, _⟩
  constructor
  · unfold repairedToken tokenRecord
    rw [hToken, hAmount]
  · exact hRole

theorem storeTokenIfAbsent_cases (storage : OwnerStorage) (row : MandalaTokenRecord) :
  (storage.tokenRow row.outpoint = none ∧ storeTokenIfAbsent storage row =
        ({ storage with tokens := storage.tokens ++ [row] }, true)) ∨
    storeTokenIfAbsent storage row = (storage, false) := by
  unfold storeTokenIfAbsent
  cases storage.tokenRow row.outpoint with
  | none => exact .inl ⟨rfl, rfl⟩
  | some other => exact .inr rfl

theorem upsertToken_cases {row : MandalaTokenRecord}
  (hSame : ∀ other ∈ storage.tokens, other.outpoint = row.outpoint → other = row) :
  (storage.tokenRow row.outpoint = none ∧ upsertToken storage row =
        ({ storage with tokens := storage.tokens ++ [row] }, true)) ∨
    upsertToken storage row = (storage, false) := by
  unfold upsertToken
  cases storage.tokenRow row.outpoint with
  | none => exact .inl ⟨rfl, rfl⟩
  | some old =>
    right
    have hMap :
        (storage.tokens.map fun old =>
          if old.outpoint = row.outpoint then row else old) =
          storage.tokens.map id := by
      apply map_congr_left
      intro other hOther
      split_ifs with hOutpoint
      · exact (hSame other hOther hOutpoint).symm
      · rfl
    rw [List.map_id] at hMap
    simp only [Option.isSome_some, if_true, hMap]

theorem tokens_markUTXOAsSpent {marked : OwnerStorage} {spendingTxid : Bytes}
  (hMark : markUTXOAsSpent storage outpoint spendingTxid = some marked) :
  marked.tokens = storage.tokens ∧ marked.balances = storage.balances := by
  unfold markUTXOAsSpent at hMark
  split at hMark
  · cases hMark
  · split at hMark
    · split_ifs at hMark
      rw [← Option.some.inj hMark]
      exact ⟨rfl, rfl⟩
    · rw [← Option.some.inj hMark]
      exact ⟨rfl, rfl⟩

section

variable
    {increment : Int → Int → Int} {facts : OutputFacts} {storage : OwnerStorage}
    {outpoint : TokenOutpoint}

/- A call that leaves rows and balances as they are. -/
theorem Effect.unmoved {call : Call} {next : Option Call} (hCall : call.isMove = false)
  (hNext : next.any Call.isMove = false) :
  Effect increment facts storage outpoint call (storage, next) :=
  .quiet hCall rfl rfl hNext

theorem performStore_effect :
  Effect increment facts storage outpoint .storeRow (performStore facts storage outpoint) := by
  unfold performStore
  cases hRole : (facts.script outpoint).role with
  | value =>
    dsimp only
    rcases storeTokenIfAbsent_cases storage (tokenRecord facts outpoint) with
      ⟨hAbsent, hStore⟩ | hStore
    · rw [hStore]
      exact .insert false rfl hAbsent hRole
    · rw [hStore]
      exact .unmoved rfl rfl
  | deploy =>
    unfold storeAuthorityIfAbsent
    split_ifs
    · exact .unmoved rfl rfl
    · exact .quiet rfl rfl rfl rfl
  | authority =>
    unfold storeAuthorityIfAbsent
    split_ifs
    · exact .unmoved rfl rfl
    · exact .quiet rfl rfl rfl rfl

theorem upsertAuthority_unmoved (row : MandalaAuthorityRecord) :
  (upsertAuthority storage row).1.tokens = storage.tokens ∧
    (upsertAuthority storage row).1.balances =
      storage.balances := by
  unfold upsertAuthority
  split_ifs
  · exact ⟨rfl, rfl⟩
  · exact ⟨rfl, rfl⟩

theorem performRepair_effect (hRows : ∀ row ∈ storage.tokens, row = tokenRecord facts row.outpoint)
  (hAgrees : journalAgrees facts outpoint = true) :
  Effect increment facts storage outpoint .repair (performRepair facts storage outpoint) := by
  rcases repairedToken_of_journalAgrees hAgrees with ⟨hRec, hRole⟩
  have hAuthority : Effect increment facts storage outpoint .repair
        ((upsertAuthority storage (repairedAuthority facts outpoint)).1,
        nextIf (upsertAuthority storage (repairedAuthority facts outpoint)).2 .recheck) :=
    .quiet rfl (upsertAuthority_unmoved _).1 (upsertAuthority_unmoved _).2 (nextIf_isMove rfl)
  unfold performRepair
  cases hJournal : (facts.journal outpoint).role with
  | value =>
    dsimp only
    rw [hRec]
    have hSame : ∀ other ∈ storage.tokens, other.outpoint = (tokenRecord facts outpoint).outpoint →
            other = tokenRecord facts outpoint := by
      intro other hOther hOutpoint
      have hOther := hRows other hOther
      rw [hOutpoint] at hOther
      exact hOther
    rcases upsertToken_cases hSame with ⟨hAbsent, hStore⟩ | hStore
    · rw [hStore]
      exact .insert true rfl hAbsent (hRole.symm.trans hJournal)
    · rw [hStore]
      exact .unmoved rfl rfl
  | deploy => exact hAuthority
  | authority => exact hAuthority

theorem performTake_effect (evict : Bool) :
  Effect increment facts storage outpoint (.takeToken evict)
    (performTake storage outpoint evict) := by
  unfold performTake
  cases hRow : storage.tokenRow outpoint with
  | some row => exact .take evict rfl hRow
  | none => exact .unmoved rfl rfl

theorem performTakeBack_effect :
  Effect increment facts storage outpoint .takeBack (performTakeBack facts storage outpoint) := by
  unfold performTakeBack
  cases (facts.journal outpoint).role with
  | value =>
    cases hRow : storage.tokenRow outpoint with
    | some row => exact .take false rfl hRow
    | none => exact .unmoved rfl rfl
  | deploy => exact .quiet rfl rfl rfl rfl
  | authority => exact .quiet rfl rfl rfl rfl

theorem perform_effect
  (hRows : ∀ row ∈ storage.tokens, row = tokenRecord facts row.outpoint) {call : Call}
  (hAgrees : call.ofRepair = true → journalAgrees facts outpoint = true) :
  Effect increment facts storage outpoint call
    (perform increment facts storage outpoint call) := by
  cases call with
  | readOwner linked => exact .unmoved rfl (nextIf_isMove rfl)
  | storeRow => exact performStore_effect
  | credit repair => exact .credit repair
  | markSpent spendingTxid =>
    unfold perform
    dsimp only
    cases hMark : markUTXOAsSpent storage outpoint spendingTxid with
    | none => exact .unmoved rfl rfl
    | some marked =>
      rcases tokens_markUTXOAsSpent hMark with ⟨hTokens, hBalances⟩
      exact .quiet rfl hTokens hBalances rfl
  | takeToken evict => exact performTake_effect evict
  | debit row evict => exact .debit row evict
  | takeAuthority evict => exact .quiet rfl rfl rfl (afterRow_isMove evict)
  | deleteOutput => exact .quiet rfl rfl rfl rfl
  | inlineRow => exact .unmoved rfl (nextIf_isMove rfl)
  | inlineJournal => exact .unmoved rfl rfl
  | inlineEngine journalled => exact .unmoved rfl (nextIf_isMove rfl)
  | listedEngine => exact .unmoved rfl (nextIf_isMove rfl)
  | listedRow => exact .unmoved rfl (nextIf_isMove rfl)
  | listedJournal => exact .unmoved rfl (nextIf_isMove rfl)
  | repair => exact performRepair_effect hRows (hAgrees rfl)
  | recheck => exact .unmoved rfl (nextIf_isMove rfl)
  | takeBack => exact performTakeBack_effect

end

-- Rows and Counts

structure RowsInvariant (facts : OutputFacts) (storage : OwnerStorage) : Prop where
  nodup : storage.rowed.Nodup
  record : ∀ row ∈ storage.tokens, row = tokenRecord facts row.outpoint
  role : ∀ row ∈ storage.tokens, (facts.script row.outpoint).role = .value

section

variable
    {increment : Int → Int → Int} {facts : OutputFacts} {storage stored : OwnerStorage}
    {outpoint : TokenOutpoint} {call : Call} {next : Option Call}

theorem RowsInvariant.effect (hRows : RowsInvariant facts storage)
  (hEffect : Effect increment facts storage outpoint call (stored, next)) :
  RowsInvariant facts stored := by
  cases hEffect with
  | insert repair _ hAbsent hRole =>
    constructor
    case nodup =>
      unfold rowed
      rw [map_append]
      apply List.Nodup.append hRows.nodup (nodup_singleton _)
      apply disjoint_singleton.mpr
      exact tokenRow_eq_none_iff.mp hAbsent
    case record =>
      intro row hRow
      rcases mem_concat_iff.mp hRow with hOld | hNew
      · exact hRows.record row hOld
      · rw [hNew]
        rfl
    case role =>
      intro row hRow
      rcases mem_concat_iff.mp hRow with hOld | hNew
      · exact hRows.role row hOld
      · rw [hNew]
        exact hRole
  | take =>
    have hSub : (storage.removeToken outpoint).tokens.Sublist
      storage.tokens := filter_sublist
    constructor
    case nodup => exact hRows.nodup.sublist (hSub.map _)
    case record =>
      intro row hRow
      exact hRows.record row (hSub.subset hRow)
    case role =>
      intro row hRow
      exact hRows.role row (hSub.subset hRow)
  | credit => exact ⟨hRows.nodup, hRows.record, hRows.role⟩
  | debit => exact ⟨hRows.nodup, hRows.record, hRows.role⟩
  | quiet _ hTokens =>
    constructor
    case nodup =>
      unfold rowed
      rw [hTokens]
      exact hRows.nodup
    case record =>
      rw [hTokens]
      exact hRows.record
    case role =>
      rw [hTokens]
      exact hRows.role

/- One, if a test holds at one output of two that are same. -/
def mark (test : Bool) (outpoint other : TokenOutpoint) : Nat :=
  if test = true ∧ outpoint = other then 1 else 0

theorem mark_false (outpoint other : TokenOutpoint) : mark false outpoint other = 0 :=
  if_neg fun hTest => Bool.false_ne_true hTest.1

theorem count_recordIf
  (test : Bool) (outpoint other : TokenOutpoint) (outpoints : List TokenOutpoint) :
  (recordIf test outpoint outpoints).count other =
    outpoints.count other + mark test outpoint other := by
  cases test with
  | false =>
    rw [mark_false]
    rfl
  | true =>
    unfold recordIf mark
    rw [if_pos rfl, count_cons]
    simp

def pending (operations : List Operation) (kind : Call → Bool) (outpoint : TokenOutpoint) : Nat :=
  operations.countP fun operation => kind operation.call && decide (operation.outpoint = outpoint)

theorem pending_append
  (operations others : List Operation) (kind : Call → Bool) (outpoint : TokenOutpoint) :
  pending (operations ++ others) kind outpoint =
    pending operations kind outpoint + pending others kind outpoint :=
  countP_append

theorem pending_singleton (operation : Operation) (kind : Call → Bool) (outpoint : TokenOutpoint) :
  pending [operation] kind outpoint = mark (kind operation.call) operation.outpoint
      outpoint := by
  unfold pending mark
  rw [countP_singleton]
  simp only [Bool.and_eq_true, decide_eq_true_eq]

theorem pending_next (next : Option Call) (kind : Call → Bool) (outpoint other : TokenOutpoint) :
  pending (following outpoint next) kind other = mark (next.any kind) outpoint other := by
  cases next with
  | none => exact (mark_false _ _).symm
  | some call => exact pending_singleton _ _ _

theorem Effect.count_rowed (hRows : RowsInvariant facts storage)
  (hEffect : Effect increment facts storage outpoint call (stored, next)) (other : TokenOutpoint) :
  stored.rowed.count other + mark (next.any Call.isDebit) outpoint other =
    storage.rowed.count other + mark (next.any Call.isCredit) outpoint other := by
  cases hEffect with
  | insert repair =>
    change (storage.tokens ++ [_] |>.map _).count other + mark false outpoint other =
      _ + mark true outpoint other
    rw [mark_false, map_append, count_append]
    unfold mark
    rw [Nat.add_zero]
    apply congrArg (storage.rowed.count other + ·)
    rw [map_singleton, count_singleton]
    simp [tokenRecord]
  | take evict _ hRow =>
    rcases mem_of_tokenRow hRow with ⟨hMem, hOutpoint⟩
    change _ + mark true outpoint other = _ + mark false outpoint other
    rw [mark_false]
    have hFilter : (storage.removeToken outpoint).rowed = storage.rowed.filter (· ≠ outpoint) := by
      unfold rowed
      rw [List.filter_map]
      rfl
    rw [hFilter]
    unfold mark
    by_cases hSame : outpoint = other
    · have hIn : other ∈ storage.rowed := by
        rw [← hSame, ← hOutpoint]
        exact List.mem_map_of_mem hMem
      rw [if_pos ⟨rfl, hSame⟩, count_eq_one_of_mem hRows.nodup hIn,
        count_eq_zero_of_not_mem]
      rw [mem_filter]
      rintro ⟨_, hNe⟩
      exact of_decide_eq_true hNe hSame.symm
    · rw [if_neg fun h => hSame h.2, count_filter (by simpa using Ne.symm hSame)]
  | credit repair =>
    cases repair with
    | false => rfl
    | true => rfl
  | debit row evict =>
    cases evict with
    | false => rfl
    | true => rfl
  | quiet _ hTokens _ hNext =>
    have hNone : next.any Call.isDebit = false ∧ next.any Call.isCredit = false := by
      cases next with
      | none => exact ⟨rfl, rfl⟩
      | some call =>
        rcases Bool.or_eq_false_iff.mp hNext with ⟨hCredit, hDebit⟩
        exact ⟨hDebit, hCredit⟩
    rw [hNone.1, hNone.2]
    unfold rowed
    rw [hTokens]

end

-- Balances

def SafeNumber (value : Int) : Prop :=
  value.natAbs ≤ maxSafeInteger

instance (value : Int) : Decidable (SafeNumber value) :=
  inferInstanceAs (Decidable (_ ≤ _))

def rowCoin (row : MandalaTokenRecord) :
  CoinLedger.Coin TokenOutpoint JsString :=
  ⟨row.outpoint, row.identityKey, row.amount⟩

def coinAt (facts : OutputFacts) (outpoint : TokenOutpoint) :
  CoinLedger.Coin TokenOutpoint JsString :=
  rowCoin (tokenRecord facts outpoint)

structure BalanceInvariant (facts : OutputFacts) (storage : OwnerStorage)
  (credited debited : List TokenOutpoint) : Prop where
  safe : ∀ identityKey, SafeNumber (storage.balances.getOr identityKey)
  balance : ∀ identityKey, storage.balances.getOr identityKey +
          CoinLedger.total (debited.map (coinAt facts)) identityKey =
        CoinLedger.total (credited.map (coinAt facts)) identityKey

def ExactWhereSafe (increment : Int → Int → Int) : Prop :=
  ∀ value delta, SafeNumber value → SafeNumber delta →
      SafeNumber (value + delta) → increment value delta = value + delta

theorem total_coinAt_cons
  (facts : OutputFacts) (outpoint : TokenOutpoint) (outpoints : List TokenOutpoint)
  (identityKey : JsString) :
  CoinLedger.total ((outpoint :: outpoints).map (coinAt facts)) identityKey =
    (if (facts.journal outpoint).identityKey = identityKey then (facts.script outpoint).amount
      else 0) +
      CoinLedger.total (outpoints.map (coinAt facts))
        identityKey := by
  rw [map_cons, CoinLedger.total_cons]
  rfl

theorem safeNumber_amount (facts : OutputFacts) (outpoint : TokenOutpoint) :
  SafeNumber ((facts.script outpoint).amount : Int) ∧
    SafeNumber (-((facts.script outpoint).amount : Int)) := by
  have hAmount := (facts.script outpoint).amount_le
  unfold SafeNumber
  omega

theorem creditAmount_of_journalAgrees {facts : OutputFacts} {repair : Bool}
  (hAgrees : repair = true → journalAgrees facts outpoint = true) :
  creditAmount facts outpoint repair = (facts.script outpoint).amount := by
  cases repair with
  | false => rfl
  | true =>
    have hRec := (repairedToken_of_journalAgrees (hAgrees rfl)).1
    exact congrArg MandalaTokenRecord.amount hRec

section

variable
    {increment : Int → Int → Int} {facts : OutputFacts} {storage : OwnerStorage}
    {credited debited : List TokenOutpoint}

section

variable (hIncr : ExactWhereSafe increment) (hInv : BalanceInvariant facts storage credited debited)

include hIncr hInv

theorem getOr_adjustBalance {identityKey : JsString} {delta : Int} (hDelta : SafeNumber delta)
  (hSafe : SafeNumber (storage.balances.getOr identityKey + delta)) (other : JsString) :
  (storage.adjustBalance increment identityKey delta).balances.getOr other =
    storage.balances.getOr other + if identityKey = other then delta else 0 := by
  unfold adjustBalance
  dsimp only
  rw [Totals.getOr_set, hIncr _ _ (hInv.safe identityKey) hDelta hSafe]
  by_cases hSame : identityKey = other
  · rw [if_pos hSame.symm, if_pos hSame, hSame]
  · rw [if_neg (Ne.symm hSame), if_neg hSame, Int.add_zero]

theorem BalanceInvariant.credit {outpoint : TokenOutpoint}
  (hSafe : SafeNumber (storage.balances.getOr (facts.journal outpoint).identityKey +
        (facts.script outpoint).amount)) :
  BalanceInvariant facts (storage.adjustBalance increment (facts.journal outpoint).identityKey
      (facts.script outpoint).amount)
    (outpoint :: credited) debited := by
  have hGet := getOr_adjustBalance hIncr hInv (safeNumber_amount facts outpoint).1 hSafe
  constructor
  case safe =>
    intro other
    rw [hGet]
    split_ifs with hSame
    · rw [← hSame]
      exact hSafe
    · rw [Int.add_zero]
      exact hInv.safe other
  case balance =>
    intro other
    rw [hGet, total_coinAt_cons]
    have hOld := hInv.balance other
    split_ifs
    · omega
    · omega

theorem BalanceInvariant.debit {outpoint : TokenOutpoint}
  (hSafe : SafeNumber (storage.balances.getOr (facts.journal outpoint).identityKey -
        (facts.script outpoint).amount)) :
  BalanceInvariant facts (storage.adjustBalance increment (facts.journal outpoint).identityKey
      (-(facts.script outpoint).amount))
    credited (outpoint :: debited) := by
  have hGet := getOr_adjustBalance hIncr hInv (safeNumber_amount facts outpoint).2 hSafe
  constructor
  case safe =>
    intro other
    rw [hGet]
    split_ifs with hSame
    · rw [← hSame]
      exact hSafe
    · rw [Int.add_zero]
      exact hInv.safe other
  case balance =>
    intro other
    rw [hGet, total_coinAt_cons]
    have hOld := hInv.balance other
    split_ifs
    · omega
    · omega

end

theorem BalanceInvariant.congr
  {stored : OwnerStorage} (hInv : BalanceInvariant facts storage credited debited)
  (hBalances : stored.balances = storage.balances) :
  BalanceInvariant facts stored credited debited := by
  constructor
  case safe =>
    rw [hBalances]
    exact hInv.safe
  case balance =>
    rw [hBalances]
    exact hInv.balance

end

end TsStack.Mandala
