import Mathlib.Data.List.Dedup
import TsStack.Mandala.LiveFold

/-
  The refolds of `MandalaLookupService.ts` against the folds
  of the notifications.
-/

-- Runs Without a Transaction

open List

namespace TsStack.Mandala

open MandalaStorage

variable
    {decodeAdminDetails : JsString → Nat → Except JsError AdminDetails}

/- A row without its number. -/
def AdminHistoryEntry.unnumbered (entry : AdminHistoryEntry) : AdminHistoryEntry :=
  { entry with admitSeq := 0 }

/- Two storages, one without the actions of a transaction. -/
structure Without (txid : Bytes) (storage other : MandalaStorage) : Prop where
  tokens : other.tokens = storage.tokens
  metadata : other.metadata = storage.metadata
  history : other.adminHistory.map (·.unnumbered) =
      (storage.adminHistory.filter (·.txid ≠ txid)).map (·.unnumbered)

theorem mem_map_unnumbered {history other : List AdminHistoryEntry}
  (hSame : other.map (·.unnumbered) = history.map (·.unnumbered)) {entry : AdminHistoryEntry}
  (hEntry : entry ∈ other) : ∃ found ∈ history, found.unnumbered = entry.unnumbered := by
  have hMem := List.mem_map_of_mem (f := AdminHistoryEntry.unnumbered) hEntry
  rw [hSame] at hMem
  rcases List.mem_map.mp hMem with ⟨found, hFound, hEq⟩
  exact ⟨found, hFound, hEq⟩

variable
    {txid : Bytes} {storage other : MandalaStorage}

theorem Without.delivered
  (hWithout : Without txid storage other) {event : Event} (hDeliv : Delivered storage event) :
  Delivered other event := by
  cases event with
  | index tokens => exact trivial
  | deliver admitted =>
    intro hRole
    rcases hDeliv hRole with hFirst | hReplay
    · left
      rw [hWithout.metadata]
      refine ⟨hFirst.1, ?_⟩
      intro entry hEntry hToken
      rcases mem_map_unnumbered hWithout.history hEntry with ⟨found, hFound, hSame⟩
      apply hFirst.2 found (mem_of_mem_filter hFound)
      have hTokens := congrArg AdminHistoryEntry.tokenId hSame
      exact hTokens.trans hToken
    · right
      rw [hWithout.metadata]
      exact hReplay

theorem any_key_map_unnumbered (history : List AdminHistoryEntry) (key : JsString × Bytes × Nat) :
  (history.map (·.unnumbered)).any (·.key = key) = history.any (·.key = key) := by
  rw [List.any_map]
  rfl

/- A replay of another transaction is one in both. -/
theorem Without.hasEntry
  (hWithout : Without txid storage other) {key : JsString × Bytes × Nat} (hKey : key.2.1 ≠ txid) :
  other.hasEntry key = storage.hasEntry key := by
  unfold MandalaStorage.hasEntry
  rw [← any_key_map_unnumbered other.adminHistory, hWithout.history, any_key_map_unnumbered]
  apply Bool.eq_iff_iff.mpr
  rw [List.any_eq_true, List.any_eq_true]
  constructor
  · rintro ⟨entry, hEntry, hSame⟩
    exact ⟨entry, mem_of_mem_filter hEntry, hSame⟩
  · rintro ⟨entry, hEntry, hSame⟩
    refine ⟨entry, mem_filter.mpr ⟨hEntry, ?_⟩, hSame⟩
    apply decide_eq_true
    have hTxid := congrArg (·.2.1) (of_decide_eq_true hSame)
    exact fun h => hKey (hTxid.symm.trans h)

theorem Without.append
  {txid : Bytes} {storage other : MandalaStorage} (hWithout : Without txid storage other)
  {admitted : Admitted} (hTxid : admitted.txid ≠ txid) (details : AdminDetails)
  (detailsHex : JsString) :
  Without txid (appendAndFold storage details (historyEntry storage admitted details detailsHex))
    (appendAndFold other details (historyEntry other admitted details detailsHex)) := by
  have hSame : (historyEntry other admitted details detailsHex).unnumbered =
        (historyEntry storage admitted details detailsHex).unnumbered := by
    unfold historyEntry
    rw [hWithout.tokens]
    rfl
  have hReplay : other.hasEntry (historyEntry other admitted details detailsHex).key =
        storage.hasEntry (historyEntry storage admitted details detailsHex).key :=
    hWithout.hasEntry hTxid
  cases hNew : storage.hasEntry (historyEntry storage admitted details detailsHex).key with
  | true =>
    rw [hNew] at hReplay
    rw [appendAndFold_of_replay hNew, appendAndFold_of_replay hReplay]
    exact ⟨hWithout.tokens, hWithout.metadata, hWithout.history⟩
  | false =>
    rw [hNew] at hReplay
    rw [appendAndFold_of_new hNew, appendAndFold_of_new hReplay]
    refine ⟨hWithout.tokens, hWithout.metadata, ?_⟩
    change (other.adminHistory ++ [_]).map _ = ((storage.adminHistory ++ [_]).filter _).map _
    rw [map_append, filter_append, map_append, hWithout.history,
      filter_cons_of_pos, filter_nil, map_singleton, map_singleton, hSame]
    exact decide_eq_true hTxid

/- An action of the transaction is left out. -/
theorem Without.skip
  (hWithout : Without txid storage other) {admitted : Admitted} (hTxid : admitted.txid = txid)
  (details : AdminDetails) (detailsHex : JsString) :
  Without txid (appendAndFold storage details (historyEntry storage admitted details detailsHex))
    other := by
  unfold appendAndFold
  split_ifs
  · exact ⟨hWithout.tokens, hWithout.metadata, hWithout.history⟩
  · refine ⟨hWithout.tokens, hWithout.metadata, ?_⟩
    change _ = ((storage.adminHistory ++ [_]).filter _).map _
    rw [filter_append, filter_cons_of_neg, filter_nil, append_nil]
    · exact hWithout.history
    · rw [decide_eq_true_iff, not_not]
      exact hTxid

-- Purges

theorem tokens_putAssetStateIfAbsent (storage : MandalaStorage) (s : AssetAdminState) :
  (storage.putAssetStateIfAbsent s).tokens =
    storage.tokens := by
  unfold putAssetStateIfAbsent
  split
  · rfl
  · rfl

theorem metadata_putAssetStateIfAbsent (storage : MandalaStorage) (s : AssetAdminState) :
  (storage.putAssetStateIfAbsent s).metadata =
    storage.metadata := by
  unfold putAssetStateIfAbsent
  split
  · rfl
  · rfl

theorem adminHistory_putAssetStateIfAbsent (storage : MandalaStorage) (s : AssetAdminState) :
  (storage.putAssetStateIfAbsent s).adminHistory =
    storage.adminHistory := by
  unfold putAssetStateIfAbsent
  split
  · rfl
  · rfl

theorem Without.step
  {txid : Bytes} {storage other : MandalaStorage} (hWithout : Without txid storage other)
  {event : Event} (hOther : isActionOf txid event = false) :
  Without txid (step decodeAdminDetails storage event) (step decodeAdminDetails other event) := by
  cases event with
  | index tokens => exact ⟨rfl, hWithout.metadata, hWithout.history⟩
  | deliver admitted =>
    unfold Mandala.step outputAdmittedByTopic
    dsimp only
    cases hRole : admitted.role with
    | value =>
      unfold recordAction indexDeploy committedAction runStep
      rw [hRole]
      exact hWithout
    | authority =>
      have hTxid : admitted.txid ≠ txid := by
        unfold isActionOf at hOther
        dsimp only at hOther
        rw [hRole] at hOther
        exact of_decide_eq_false hOther
      have hDeploy (stored : MandalaStorage) : runStep (indexDeploy · admitted) stored =
            stored := by
        unfold indexDeploy runStep
        rw [hRole]
      rw [hDeploy, hDeploy]
      unfold recordAction runStep
      cases committedAction decodeAdminDetails admitted with
      | error fault => exact hWithout
      | ok action =>
        cases action with
        | none => exact hWithout
        | some action => exact hWithout.append hTxid action.1 action.2
    | deploy =>
      have hRec (stored : MandalaStorage) :
          runStep (recordAction decodeAdminDetails · admitted) stored = stored := by
        unfold recordAction committedAction runStep
        rw [hRole]
        rfl
      rw [hRec, hRec]
      unfold indexDeploy runStep
      rw [hRole]
      cases hMetadata : admitted.metadata with
      | error fault => exact hWithout
      | ok feeRatePerKb =>
        change Without txid ((storage.storeMetadata admitted.tokenId
            feeRatePerKb).putAssetStateIfAbsent _)
          ((other.storeMetadata admitted.tokenId feeRatePerKb).putAssetStateIfAbsent _)
        constructor
        case tokens =>
          rw [tokens_putAssetStateIfAbsent, tokens_putAssetStateIfAbsent]
          exact hWithout.tokens
        case metadata =>
          rw [metadata_putAssetStateIfAbsent, metadata_putAssetStateIfAbsent]
          unfold storeMetadata
          rw [hWithout.metadata]
        case history =>
          rw [adminHistory_putAssetStateIfAbsent, adminHistory_putAssetStateIfAbsent]
          exact hWithout.history

variable
    (decodeAdminDetails : JsString → Nat → Except JsError AdminDetails)

def InOrder (storage : MandalaStorage) (event : Event) : Prop :=
  Delivered storage event ∧ InFoldOrder decodeAdminDetails storage event

end TsStack.Mandala
