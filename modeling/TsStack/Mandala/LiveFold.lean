import TsStack.Mandala.AdminHistory

/-
  The folds of the notifications of
  `MandalaLookupService.ts`: in every run the state of a
  token is the fold of its history.
-/

-- Runs

open List

namespace TsStack.Mandala

open MandalaStorage Function

variable
    (decodeAdminDetails : JsString → Nat → Except JsError AdminDetails)

/- A notification, or any change of the rows of coins. -/
inductive Event where
| deliver (admitted : Admitted)
| index (tokens : List MandalaTokenRecord)

def step (storage : MandalaStorage) : Event → MandalaStorage
| .deliver admitted => outputAdmittedByTopic decodeAdminDetails storage admitted
| .index tokens => { storage with tokens := tokens }

def run (events : List Event) : MandalaStorage :=
  events.foldl (step decodeAdminDetails) {}

def Delivered (storage : MandalaStorage) : Event → Prop
| .deliver admitted =>
  admitted.role = .deploy → (storage.metadata admitted.tokenId = none ∧
      ∀ entry ∈ storage.adminHistory, entry.tokenId ≠ admitted.tokenId) ∨
    ∃ feeRatePerKb, admitted.metadata = .ok feeRatePerKb ∧
        storage.metadata admitted.tokenId = some feeRatePerKb
| .index _ => True

/- An action that is new is not mined before older ones. -/
def InFoldOrder (storage : MandalaStorage) : Event → Prop
| .deliver admitted =>
  ∀ action, committedAction decodeAdminDetails admitted = .ok (some action) →
    storage.hasEntry (admitted.tokenId, admitted.txid, admitted.outputIndex) = false →
    ∀ entry ∈ storage.adminHistory, entry.tokenId = admitted.tokenId → entry.height <
            (txOrdering admitted.txid admitted.merklePath).1 ∨
          entry.height = (txOrdering admitted.txid admitted.merklePath).1 ∧
            entry.offset ≤ (txOrdering admitted.txid admitted.merklePath).2
| .index _ => True

inductive Run (meets : MandalaStorage → Event → Prop) :
  List Event → Prop where
| empty : Run meets []
| next
    {events : List Event} {event : Event} (hRun : Run meets events)
    (hMeets : meets (run decodeAdminDetails events) event) :
    Run meets (events ++ [event])

def isActionOf (txid : Bytes) : Event → Bool
| .deliver admitted =>
  decide (admitted.role = .authority) && decide (admitted.txid = txid)
| .index _ => false

variable {decodeAdminDetails}

theorem run_concat (events : List Event) (event : Event) :
  run decodeAdminDetails (events ++ [event]) = step decodeAdminDetails
      (run decodeAdminDetails events) event := by
  unfold run
  rw [foldl_append]
  rfl

variable
    (decodeAdminDetails : JsString → Nat → Except JsError AdminDetails)

def AdminHistoryEntry.context (entry : AdminHistoryEntry) : FoldContext :=
  match entry.frozenAmount with
  | none => {}
  | some amount => ⟨some amount, some (entry.frozenOwner.getD [])⟩

def foldEntry (state : AssetAdminState) (entry : AdminHistoryEntry) : AssetAdminState :=
  match decodeAdminDetails entry.detailsHex entry.outputIndex with
  | .ok details => folded state details entry entry.context
  | .error _ => state

def refoldedState (storage : MandalaStorage) (tokenId : JsString)
  (excludeTxid : Option Bytes) : AssetAdminState :=
  ((storage.adminHistory.filter (·.tokenId = tokenId)).filter fun entry =>
      some entry.txid ≠ excludeTxid).foldl (foldEntry decodeAdminDetails)
        (defaultAssetState tokenId ((storage.metadata tokenId).getD none))

/- A row decodes, and keeps the context of its action. -/
def Decodes (entry : AdminHistoryEntry) : Prop :=
  ∃ details, decodeAdminDetails entry.detailsHex entry.outputIndex = .ok details ∧
      (frozenOutpoint details = none ∨ entry.frozenAmount.isSome = true)

variable {decodeAdminDetails}

@[simp] theorem tokenId_defaultAssetState (tokenId : JsString) (feeRatePerKb : Option Nat) :
  (defaultAssetState tokenId feeRatePerKb).tokenId =
    tokenId := rfl

theorem tokenId_foldAction (s : AssetAdminState) (d : AdminDetails) (ctx : FoldContext) :
  (foldAction s d ctx).tokenId = s.tokenId := by
  rcases d with ⟨kind, outpoint, _, identityKey, _, _⟩
  cases kind with
  | blockIdentity => cases identityKey <;> rfl
  | unblockIdentity => cases identityKey <;> rfl
  | allowIdentity => cases identityKey <;> rfl
  | unallowIdentity => cases identityKey <;> rfl
  | freezeOutput =>
    cases outpoint with
    | none => rfl
    | some outpoint =>
      unfold foldAction freezeOutput
      dsimp only
      split_ifs
      · rfl
      · rfl
  | unfreezeOutput => cases outpoint <;> rfl
  | reissue => cases outpoint <;> rfl
  | _ => rfl

variable {entry : AdminHistoryEntry}

def Ordered (history : List AdminHistoryEntry) : Prop :=
  history.Pairwise fun entry other => entry.tokenId = other.tokenId → entry.FoldsBefore other

variable {storage : MandalaStorage}

variable
    {decodeAdminDetails : JsString → Nat → Except JsError AdminDetails}

theorem getAssetState_putAssetState
  (storage : MandalaStorage) (s : AssetAdminState) (tokenId : JsString) :
  (storage.putAssetState s).getAssetState tokenId =
    if tokenId = s.tokenId then s else storage.getAssetState tokenId := by
  unfold getAssetState putAssetState
  dsimp only
  rw [update_apply]
  split_ifs
  · rfl
  · rfl

theorem outputAdmittedByTopic_cases
  (decodeAdminDetails : JsString → Nat → Except JsError AdminDetails) (storage : MandalaStorage)
  (admitted : Admitted) : outputAdmittedByTopic decodeAdminDetails storage admitted = storage ∨
    (admitted.role = .authority ∧ ∃ details detailsHex,
        committedAction decodeAdminDetails admitted = .ok (some (details, detailsHex)) ∧
          decodeAdminDetails detailsHex admitted.outputIndex = .ok details ∧
          outputAdmittedByTopic decodeAdminDetails storage admitted =
            appendAndFold storage details (historyEntry storage admitted details detailsHex)) ∨
    (admitted.role = .deploy ∧ ∃ feeRatePerKb, admitted.metadata = .ok feeRatePerKb ∧
          outputAdmittedByTopic decodeAdminDetails storage admitted =
            (storage.storeMetadata admitted.tokenId feeRatePerKb).putAssetStateIfAbsent
                (defaultAssetState admitted.tokenId feeRatePerKb)) := by
  unfold outputAdmittedByTopic
  cases hRole : admitted.role with
  | value =>
    left
    unfold recordAction indexDeploy committedAction runStep
    rw [hRole]
    rfl
  | deploy =>
    have hRec : runStep (recordAction decodeAdminDetails · admitted) storage = storage := by
      unfold recordAction committedAction runStep
      rw [hRole]
      rfl
    rw [hRec]
    unfold indexDeploy runStep
    rw [hRole]
    cases hMetadata : admitted.metadata with
    | error fault => exact .inl rfl
    | ok feeRatePerKb => exact .inr (Or.inr ⟨rfl, feeRatePerKb, rfl, rfl⟩)
  | authority =>
    have hDeploy (stored : MandalaStorage) : runStep (indexDeploy · admitted) stored =
          stored := by
      unfold indexDeploy runStep
      rw [hRole]
    rw [hDeploy]
    unfold recordAction runStep
    cases hAction : committedAction decodeAdminDetails admitted with
    | error fault => exact .inl rfl
    | ok action =>
      cases action with
      | none => exact .inl rfl
      | some action =>
        rcases action with ⟨details, detailsHex⟩
        refine .inr (Or.inl ⟨rfl, details, detailsHex, rfl, ?_, rfl⟩)
        unfold committedAction at hAction
        rw [hRole] at hAction
        dsimp only at hAction
        split_ifs at hAction
        · exact nomatch hAction
        · cases hHex : admitted.detailsHex with
          | none =>
            rw [hHex] at hAction
            exact nomatch hAction
          | some hex =>
            rw [hHex] at hAction
            dsimp only at hAction
            rcases bind_eq_ok_iff.mp hAction with ⟨decoded, hDec, hSame⟩
            rcases Prod.mk.inj (Option.some.inj (Except.ok.inj hSame)) with ⟨rfl, rfl⟩
            exact hDec

/- The row of an action keeps the context it is folded with. -/
theorem context_historyEntry
  (storage : MandalaStorage) (admitted : Admitted) (details : AdminDetails)
  (detailsHex : JsString) : (historyEntry storage admitted details detailsHex).context =
    liveFoldContext storage.tokens details
      admitted.tokenId := by
  unfold AdminHistoryEntry.context historyEntry
  dsimp only
  unfold liveFoldContext
  cases frozenOutpoint details with
  | none => rfl
  | some outpoint =>
    dsimp only
    cases getTokenRow storage.tokens outpoint with
    | none => rfl
    | some row =>
      dsimp only
      split_ifs
      · rfl
      · rfl

variable {details : AdminDetails}

theorem decodes_historyEntry
  (storage : MandalaStorage) {admitted : Admitted} {detailsHex : JsString}
  (hDetails : decodeAdminDetails detailsHex admitted.outputIndex = .ok details) :
  Decodes decodeAdminDetails (historyEntry storage admitted details detailsHex) := by
  refine ⟨details, hDetails, ?_⟩
  unfold historyEntry
  dsimp only
  unfold liveFoldContext
  cases hOutpoint : frozenOutpoint details with
  | none => exact .inl rfl
  | some outpoint =>
    right
    dsimp only
    cases getTokenRow storage.tokens outpoint with
    | none => rfl
    | some row =>
      dsimp only
      split_ifs
      · rfl
      · rfl

theorem appendAndFold_of_new (hNew : storage.hasEntry entry.key = false) :
  appendAndFold storage details entry = (storage.insertEntry entry).putAssetState
      (folded (storage.getAssetState entry.tokenId) details entry
        (liveFoldContext storage.tokens details entry.tokenId)) := by
  unfold appendAndFold
  rw [hNew, if_neg Bool.false_ne_true]

theorem appendAndFold_of_replay (hReplay : storage.hasEntry entry.key = true) :
  appendAndFold storage details entry = { storage with admitSeq := entry.admitSeq } := by
  unfold appendAndFold
  rw [if_pos hReplay]

-- Live States

variable
    {decodeAdminDetails : JsString → Nat → Except JsError AdminDetails}

structure LiveInvariant (decodeAdminDetails : JsString → Nat → Except JsError AdminDetails)
  (storage : MandalaStorage) : Prop where
  decodes : ∀ entry ∈ storage.adminHistory, Decodes decodeAdminDetails entry
  tokenIds : ∀ tokenId, (storage.getAssetState tokenId).tokenId = tokenId
  known : ∀ tokenId, storage.assetStates tokenId = none ↔ storage.metadata tokenId = none ∧
          ∀ entry ∈ storage.adminHistory, entry.tokenId ≠ tokenId
  live :
    ∀ tokenId, storage.getAssetState tokenId = refoldedState decodeAdminDetails storage tokenId none

theorem liveInvariant_empty : LiveInvariant decodeAdminDetails {} where
  decodes := fun _ hEntry => absurd hEntry not_mem_nil
  tokenIds := fun _ => rfl
  known := fun _ => ⟨fun _ => ⟨rfl, fun _ hEntry => absurd hEntry not_mem_nil⟩, fun _ => rfl⟩
  live := fun _ => rfl

theorem refoldedState_eq_foldl (storage : MandalaStorage) (tokenId : JsString) :
  refoldedState decodeAdminDetails storage tokenId none =
    (storage.adminHistory.filter (·.tokenId = tokenId)).foldl (foldEntry decodeAdminDetails)
        (defaultAssetState tokenId ((storage.metadata tokenId).getD none)) := by
  unfold refoldedState
  rw [filter_eq_self.mpr]
  intro entry _
  exact decide_eq_true (Option.some_ne_none _)

theorem filter_concat_of_ne
  {history : List AdminHistoryEntry} {tokenId : JsString} (hOther : entry.tokenId ≠ tokenId) :
  (history ++ [entry]).filter (·.tokenId = tokenId) = history.filter (·.tokenId = tokenId) := by
  rw [filter_append, filter_cons_of_neg, filter_nil, append_nil]
  rw [decide_eq_true_iff]
  exact hOther

variable {storage : MandalaStorage}

/- A new action keeps the live states. -/
theorem LiveInvariant.append (hInv : LiveInvariant decodeAdminDetails storage)
  {admitted : Admitted} {details : AdminDetails} {detailsHex : JsString}
  (hDetails : decodeAdminDetails detailsHex admitted.outputIndex = .ok details) :
  LiveInvariant decodeAdminDetails (appendAndFold storage details
      (historyEntry storage admitted details detailsHex)) := by
  have hDecodes := decodes_historyEntry storage hDetails
  have hCtx := context_historyEntry storage admitted details detailsHex
  have hToken : (historyEntry storage admitted details detailsHex).tokenId = admitted.tokenId := rfl
  have hHex : decodeAdminDetails (historyEntry storage admitted details detailsHex).detailsHex
    (historyEntry storage admitted details detailsHex).outputIndex = .ok details := hDetails
  generalize historyEntry storage admitted details detailsHex =
    entry at hDecodes hCtx hToken hHex ⊢
  rw [← hToken] at hCtx
  cases hNew : storage.hasEntry entry.key with
  | true =>
    rw [appendAndFold_of_replay hNew]
    exact ⟨hInv.decodes, hInv.tokenIds, hInv.known, hInv.live⟩
  | false =>
    have hFolded : (folded (storage.getAssetState entry.tokenId) details entry
          (liveFoldContext storage.tokens details entry.tokenId)).tokenId = entry.tokenId := by
      change (foldAction _ details _).tokenId = _
      rw [tokenId_foldAction]
      exact hInv.tokenIds entry.tokenId
    rw [appendAndFold_of_new hNew]
    constructor
    case decodes =>
      intro other hOther
      rcases mem_concat_iff.mp hOther with hOld | hLast
      · exact hInv.decodes other hOld
      · rw [hLast]
        exact hDecodes
    case tokenIds =>
      intro tokenId
      rw [getAssetState_putAssetState, hFolded]
      split_ifs with hSame
      · rw [hFolded, hSame]
      · exact hInv.tokenIds tokenId
    case known =>
      intro tokenId
      unfold putAssetState
      dsimp only
      rw [hFolded, update_apply]
      by_cases hSame : tokenId = entry.tokenId
      · rw [if_pos hSame]
        constructor
        · exact fun hNone => nomatch hNone
        · intro hNone
          exact absurd hSame.symm (hNone.2 entry (mem_append_right _ mem_cons_self))
      · rw [if_neg hSame]
        change storage.assetStates tokenId = none ↔ storage.metadata tokenId = none ∧
          ∀ other ∈ storage.adminHistory ++ [entry], other.tokenId ≠ tokenId
        rw [hInv.known tokenId]
        apply and_congr_right
        intro _
        constructor
        · intro hNone other hOther
          rcases mem_concat_iff.mp hOther with hOld | hLast
          · exact hNone other hOld
          · rw [hLast]
            exact Ne.symm hSame
        · intro hNone other hOther
          exact hNone other (mem_append_left _ hOther)
    case live =>
      intro tokenId
      rw [getAssetState_putAssetState, hFolded, refoldedState_eq_foldl]
      change _ = foldl _ (defaultAssetState tokenId ((storage.metadata tokenId).getD none))
        ((storage.adminHistory ++ [entry]).filter (·.tokenId = tokenId))
      have hLive := hInv.live tokenId
      rw [refoldedState_eq_foldl] at hLive
      by_cases hSame : tokenId = entry.tokenId
      · rw [if_pos hSame, filter_append, filter_cons_of_pos
            (by rw [hSame]; exact decide_eq_true rfl),
          filter_nil, foldl_append, ← hLive]
        rw [foldl_cons, foldl_nil]
        unfold foldEntry
        rw [hHex, hCtx, hSame]
      · rw [if_neg hSame, filter_concat_of_ne (Ne.symm hSame), ← hLive]
        rfl

theorem LiveInvariant.deploy (hInv : LiveInvariant decodeAdminDetails storage) {tokenId : JsString}
  {feeRatePerKb : Option Nat} (hDeliv :
    (storage.metadata tokenId = none ∧ ∀ entry ∈ storage.adminHistory, entry.tokenId ≠ tokenId) ∨
    storage.metadata tokenId = some feeRatePerKb) :
  LiveInvariant decodeAdminDetails ((storage.storeMetadata tokenId
      feeRatePerKb).putAssetStateIfAbsent (defaultAssetState tokenId feeRatePerKb)) := by
  rcases hDeliv with hFst | hReplay
  · -- The state is written with the fee rate.
    have hNone := (hInv.known tokenId).mpr hFst
    have hStore : (storage.storeMetadata tokenId feeRatePerKb).putAssetStateIfAbsent
            (defaultAssetState tokenId feeRatePerKb) =
          (storage.storeMetadata tokenId feeRatePerKb).putAssetState
            (defaultAssetState tokenId feeRatePerKb) := by
      have hState : (storage.storeMetadata tokenId feeRatePerKb).assetStates
        (defaultAssetState tokenId feeRatePerKb).tokenId = none := hNone
      unfold putAssetStateIfAbsent
      rw [hState]
    rw [hStore]
    constructor
    case decodes => exact hInv.decodes
    case tokenIds =>
      intro id
      rw [getAssetState_putAssetState]
      split_ifs with hSame
      · exact hSame.symm
      · exact hInv.tokenIds id
    case known =>
      intro id
      unfold putAssetState storeMetadata
      dsimp only
      rw [update_apply, update_apply, tokenId_defaultAssetState]
      by_cases hSame : id = tokenId
      · rw [if_pos hSame, if_pos hSame]
        constructor
        · exact fun h => nomatch h
        · exact fun h => nomatch h.1
      · rw [if_neg hSame, if_neg hSame]
        exact hInv.known id
    case live =>
      intro id
      rw [getAssetState_putAssetState, refoldedState_eq_foldl, tokenId_defaultAssetState]
      change _ = foldl _ (defaultAssetState id
        ((update storage.metadata tokenId (some feeRatePerKb) id).getD none))
        (storage.adminHistory.filter (·.tokenId = id))
      rw [update_apply]
      by_cases hSame : id = tokenId
      · have hEmpty : storage.adminHistory.filter (·.tokenId = id) = [] := by
          apply filter_eq_nil_iff.mpr
          intro entry hEntry hToken
          apply hFst.2 entry hEntry
          rw [of_decide_eq_true hToken, hSame]
        rw [hEmpty, hSame, if_pos rfl, if_pos rfl]
        rfl
      · rw [if_neg hSame]
        have hLive := hInv.live id
        rw [refoldedState_eq_foldl] at hLive
        rw [if_neg hSame]
        exact hLive
  · -- A replay writes what is there.
    have hSame : (storage.storeMetadata tokenId feeRatePerKb).putAssetStateIfAbsent
            (defaultAssetState tokenId feeRatePerKb) =
          storage := by
      have hStore : storage.storeMetadata tokenId feeRatePerKb =
            storage := by
        unfold storeMetadata
        rw [← hReplay, update_eq_self]
      rw [hStore]
      unfold putAssetStateIfAbsent
      cases hState : storage.assetStates (defaultAssetState tokenId feeRatePerKb).tokenId with
      | some state => rfl
      | none =>
        have hNone := ((hInv.known tokenId).mp hState).1
        rw [hReplay] at hNone
        exact nomatch hNone
    rw [hSame]
    exact hInv

-- Invariants of Runs

variable
    {decodeAdminDetails : JsString → Nat → Except JsError AdminDetails}

theorem LiveInvariant.step (hInv : LiveInvariant decodeAdminDetails storage)
  {event : Event} (hDeliv : Delivered storage event) :
  LiveInvariant decodeAdminDetails (step decodeAdminDetails storage event) := by
  cases event with
  | index tokens =>
    exact ⟨hInv.decodes, hInv.tokenIds, hInv.known, hInv.live⟩
  | deliver admitted =>
    unfold Mandala.step
    dsimp only
    rcases outputAdmittedByTopic_cases decodeAdminDetails storage admitted with
      hNone | hAction | hDeploy
    · rw [hNone]
      exact hInv
    · rcases hAction with ⟨_, details, detailsHex, _, hDetails, hStore⟩
      rw [hStore]
      exact hInv.append hDetails
    · rcases hDeploy with ⟨hRole, feeRatePerKb, hMetadata, hStore⟩
      rw [hStore]
      apply hInv.deploy
      rcases hDeliv hRole with hFst | hReplay
      · exact .inl hFst
      · rcases hReplay with ⟨known, hKnown, hSame⟩
        rw [hMetadata] at hKnown
        rw [Except.ok.inj hKnown]
        exact .inr hSame

theorem Run.live {meets : MandalaStorage → Event → Prop}
  (hMeets : ∀ storage event, meets storage event → Delivered storage event) {events : List Event}
  (hRun : Run decodeAdminDetails meets events) :
  LiveInvariant decodeAdminDetails (run decodeAdminDetails events) := by
  induction hRun with
  | empty => exact liveInvariant_empty
  | next _ hEvent ih =>
    rw [run_concat]
    exact ih.step (hMeets _ _ hEvent)

structure OrderInvariant (storage : MandalaStorage) : Prop where
  numbered : ∀ entry ∈ storage.adminHistory, entry.admitSeq ≤ storage.admitSeq
  ordered : Ordered storage.adminHistory

theorem OrderInvariant.append (hInv : OrderInvariant storage) {admitted : Admitted}
  {details : AdminDetails} {detailsHex : JsString}
  (hAction : committedAction decodeAdminDetails admitted = .ok (some (details, detailsHex)))
  (hOrder : InFoldOrder decodeAdminDetails storage (.deliver admitted)) :
  OrderInvariant (appendAndFold storage details (historyEntry storage admitted details
        detailsHex)) := by
  have hLate : ∀ entry ∈ storage.adminHistory, entry.admitSeq ≤ storage.admitSeq + 1 :=
    fun entry hEntry => Nat.le_succ_of_le (hInv.numbered entry hEntry)
  cases hNew : storage.hasEntry (historyEntry storage admitted details detailsHex).key with
  | true =>
    rw [appendAndFold_of_replay hNew]
    exact ⟨hLate, hInv.ordered⟩
  | false =>
    rw [appendAndFold_of_new hNew]
    constructor
    case numbered =>
      intro entry hEntry
      rcases mem_concat_iff.mp hEntry with hOld | hLast
      · exact hLate entry hOld
      · rw [hLast]
        exact Nat.le_refl _
    case ordered =>
      apply pairwise_append.mpr
      refine ⟨hInv.ordered, pairwise_singleton _ _, ?_⟩
      intro entry hEntry other hOther hToken
      rw [mem_singleton.mp hOther] at hToken ⊢
      have hSeq := hLate entry hEntry
      rcases hOrder _ hAction hNew entry hEntry hToken with hHeight | ⟨hHeight, hOff⟩
      · exact .inl hHeight
      · refine .inr ⟨hHeight, ?_⟩
        rcases Nat.lt_or_eq_of_le hOff with hLt | hEq
        · exact .inl hLt
        · exact .inr ⟨hEq, hSeq⟩

theorem OrderInvariant.step (hInv : OrderInvariant storage) {event : Event}
  (hOrder : InFoldOrder decodeAdminDetails storage event) :
  OrderInvariant (step decodeAdminDetails storage event) := by
  cases event with
  | index tokens => exact ⟨hInv.numbered, hInv.ordered⟩
  | deliver admitted =>
    unfold Mandala.step
    dsimp only
    rcases outputAdmittedByTopic_cases decodeAdminDetails storage admitted with
      hNone | hAction | hDeploy
    · rw [hNone]
      exact hInv
    · rcases hAction with ⟨_, details, detailsHex, hAction, _, hStore⟩
      rw [hStore]
      exact hInv.append hAction hOrder
    · rcases hDeploy with ⟨_, feeRatePerKb, _, hStore⟩
      rw [hStore]
      unfold putAssetStateIfAbsent
      split
      · exact ⟨hInv.numbered, hInv.ordered⟩
      · exact ⟨hInv.numbered, hInv.ordered⟩

theorem Run.order {meets : MandalaStorage → Event → Prop}
  (hMeets : ∀ storage event, meets storage event → InFoldOrder decodeAdminDetails storage event)
  {events : List Event} (hRun : Run decodeAdminDetails meets events) :
  OrderInvariant (run decodeAdminDetails events) := by
  induction hRun with
  | empty => exact ⟨fun _ h => absurd h not_mem_nil, List.Pairwise.nil⟩
  | next _ hEvent ih =>
    rw [run_concat]
    exact ih.step (hMeets _ _ hEvent)

end TsStack.Mandala
