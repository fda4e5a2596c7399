import TsStack.Primitives.TransactionSignature

/-
  What the cache of signature hashes may hold.

  A request against a transaction names the input it signs;
  the other parameters are the transaction's.  Every hash in
  a shared cache is the one any request of the transaction
  would compute, so that no request depends on the cache, or
  on whether it passes all inputs or the other ones.
-/

-- Requests

open List hiding modify

namespace TsStack

open StateProgram

/- The requests that a transaction's signer makes. -/
structure SignatureRequest where
  inputIndex : Nat
  sourceSatoshis : Nat
  subscript : Bytes
  scope : Nat
  ignoreChronicle : Bool
  sighashForkIdEnabled : Bool

inductive InputsConvention
| allInputs
| otherInputs
deriving DecidableEq, Repr

def SignatureRequest.params
  (request : SignatureRequest) (heap : TransactionHeap) (transaction : Transaction)
  (convention : InputsConvention) : Except JsError TransactionSignatureFormatParams :=
  match transaction.inputs[request.inputIndex]? with
  | none => .error (.error "Invalid input index")
  | some input => do
      let txid ← input.resolvedTXID heap
      match txid with
      | none =>
        .error (.error ("The input sourceTXID or sourceTransaction " ++
            "is required for transaction signing."))
      | some sourceTXID =>
        return {
          sourceTXID := sourceTXID
          sourceOutputIndex := input.sourceOutputIndex
          sourceSatoshis := request.sourceSatoshis
          transactionVersion := transaction.version
          otherInputs :=
            match convention with
            | .allInputs => []
            | .otherInputs => transaction.inputs.eraseIdx request.inputIndex
          allInputs :=
            match convention with
            | .allInputs => some transaction.inputs
            | .otherInputs => none
          outputs := transaction.outputs
          inputIndex := request.inputIndex
          subscript := request.subscript
          inputSequence := input.sequence.getD 0xffffffff
          lockTime := transaction.lockTime
          scope := request.scope
          ignoreChronicle := request.ignoreChronicle
          sighashForkIdEnabled := request.sighashForkIdEnabled }

def SignatureRequest.format
  (transaction : Transaction) (convention : InputsConvention) (request : SignatureRequest) :
  SignatureFormat Bytes := do
  let heap ← readThe TransactionHeap
  let params ← StateProgram.ofExcept (request.params heap transaction convention)
  formatBytes params

/- What a request gives by itself, without a cache. -/
def SignatureRequest.uncached
  (heap : TransactionHeap) (transaction : Transaction) (convention : InputsConvention)
  (request : SignatureRequest) : Except JsError Bytes :=
  outcome (request.format transaction convention heap none)

def formatAll (heap : TransactionHeap) (transaction : Transaction) :
  List (InputsConvention × SignatureRequest) →
    Option SignatureHashCache → List (Except JsError Bytes)
| [], _ => []
| (convention, request) :: requests, cache =>
  let run := request.format transaction convention heap cache
  outcome run :: formatAll heap transaction requests (finalState run)

/- `{}` or `{ hashOutputsSingle: new Map() }`. -/
def SignatureHashCache.fresh (hasMap : Bool) : SignatureHashCache :=
  { hashOutputsSingle := if hasMap then some [] else none }

-- Sound Caches

def prevoutsHash (heap : TransactionHeap) (inputs : List TransactionInput) :
  Except JsError Bytes := do
  let written ← inputs.mapM (writePrevout heap)
  return hash256 written.flatten

def sequencesHash (inputs : List TransactionInput) : Bytes :=
  hash256 (inputs.map fun input => LittleEndian.leBytes 4 (input.sequence.getD 0xffffffff)).flatten

structure SignatureHashCache.Sound
  (heap : TransactionHeap) (transaction : Transaction) (cache : SignatureHashCache) : Prop where
  prevouts :
    ∀ hash, cache.hashPrevouts = some hash → prevoutsHash heap transaction.inputs = .ok hash
  sequences : ∀ hash, cache.hashSequence = some hash → sequencesHash transaction.inputs = hash
  outputsAll :
    ∀ hash, cache.hashOutputsAll = some hash → hashOutputs transaction.outputs none = .ok hash
  outputsSingle :
    ∀ table, cache.hashOutputsSingle = some table → table.Sound fun index hash =>
        hashOutputs transaction.outputs (some index) = .ok hash

structure DescribesInput (heap : TransactionHeap) (transaction : Transaction)
  (params : TransactionSignatureFormatParams) : Prop where
  inputs :
    params.allInputs = some transaction.inputs ∨ params.allInputs = none ∧ params.otherInputs =
          transaction.inputs.eraseIdx params.inputIndex
  outputs : params.outputs = transaction.outputs
  current : ∃ input, transaction.inputs[params.inputIndex]? = some input ∧
        writePrevout heap params.currentInput = writePrevout heap input ∧
        params.inputSequence = input.sequence.getD 0xffffffff

/- The caches that a transaction's requests may share. -/
def CacheOf (heap : TransactionHeap) (transaction : Transaction)
  (state : Option SignatureHashCache) : Prop :=
  ∀ cache ∈ state, cache.Sound heap transaction

-- Inputs

variable {heap : TransactionHeap} {transaction : Transaction}
variable {params : TransactionSignatureFormatParams}

theorem hexToUint8Array_id {ref : TransactionRef} {txid : JsString} (hId : heap.id ref = .ok txid) :
  writeReverseHex txid = heap.hashBinary ref := by
  unfold TransactionHeap.id at hId
  rcases bind_eq_ok_iff.mp hId with ⟨bytes, hBytes, hTxid⟩
  cases hTxid
  unfold writeReverseHex TransactionHeap.hashBinary
  rw [hexToUint8Array_toHex, hBytes, ok_bind, ok_bind, reverse_reverse]

theorem describes_params {request : SignatureRequest} {convention : InputsConvention}
  (hParams : request.params heap transaction convention = .ok params) :
  DescribesInput heap transaction params := by
  unfold SignatureRequest.params at hParams
  cases hInput : transaction.inputs[request.inputIndex]? with
  | none =>
    rw [hInput] at hParams
    cases hParams
  | some input =>
    rw [hInput] at hParams
    dsimp only at hParams
    rcases bind_eq_ok_iff.mp hParams with ⟨txid, hTxid, hRest⟩
    cases txid with
    | none => cases hRest
    | some sourceTXID =>
      cases hRest
      constructor
      case inputs =>
        cases convention with
        | allInputs => exact .inl rfl
        | otherInputs => exact .inr ⟨rfl, rfl⟩
      case outputs => rfl
      case current =>
        refine ⟨input, hInput, ?_, rfl⟩
        unfold TransactionInput.resolvedTXID at hTxid
        unfold writePrevout
        cases hSrc : input.sourceTXID with
        | some txid =>
          rw [hSrc] at hTxid
          cases hTxid
          rfl
        | none =>
          cases hRef : input.sourceTransaction with
          | none =>
            rw [hSrc, hRef] at hTxid
            cases hTxid
          | some source =>
            rw [hSrc, hRef] at hTxid
            rcases bind_eq_ok_iff.mp hTxid with ⟨found, hFound, hEq⟩
            cases hEq
            dsimp only [ TransactionSignatureFormatParams.currentInput]
            rw [hexToUint8Array_id hFound]

variable
    {α β : Type} {f : α → Except JsError β} {xs : List α} {index : Nat}

/- Replacing an element by one that is treated alike. -/
theorem mapM_set {x y : α} (hGet : xs[index]? = some x) (hSame : f y = f x) :
  (xs.set index y).mapM f = xs.mapM f := by
  induction xs generalizing index with
  | nil => cases hGet
  | cons head tail ih =>
    cases index with
    | zero =>
      cases hGet
      rw [set_cons_zero, mapM_cons, mapM_cons, hSame]
    | succ index => rw [set_cons_succ, mapM_cons, mapM_cons, ih hGet]

theorem bip143InputsAt_eq
  (inputs : List TransactionInput) (index : Nat) (input : TransactionInput) :
  bip143InputsAt inputs index input = inputs.set index input := by
  unfold bip143InputsAt
  apply ext_getElem?
  intro other
  grind

/- Splicing puts back what was left out. -/
theorem spliceInput_eraseIdx {inputs : List α} (input : α) (hIdx : index < inputs.length) :
  spliceInput (inputs.eraseIdx index) index input = inputs.set index input := by
  have hLen : (inputs.take index).length = index := by
    rw [length_take]
    omega
  unfold spliceInput
  rw [set_eq_take_append_cons_drop, if_pos hIdx,
    eraseIdx_eq_take_drop_succ, take_left' hLen, drop_left' hLen]

section

variable (hParams : DescribesInput heap transaction params)
include hParams

theorem DescribesInput.inputsAt :
  bip143InputsAt (bip143Inputs params params.currentInput) params.inputIndex params.currentInput =
    transaction.inputs.set params.inputIndex
      params.currentInput := by
  rcases hParams.current with ⟨input, hInput, -⟩
  rcases List.getElem?_eq_some_iff.mp hInput with ⟨hIdx, -⟩
  rw [bip143InputsAt_eq]
  unfold bip143Inputs
  rcases hParams.inputs with hAll | ⟨hNone, hOth⟩
  · rw [hAll]
  · rw [hNone, hOth]
    dsimp only
    rw [spliceInput_eraseIdx _ hIdx, set_set]

theorem DescribesInput.prevouts_eq : hashPrevouts heap (bip143Inputs params params.currentInput)
      params.inputIndex params.currentInput =
    prevoutsHash heap transaction.inputs := by
  rcases hParams.current with ⟨input, hInput, hSame, -⟩
  unfold hashPrevouts prevoutsHash
  rw [hParams.inputsAt, mapM_set hInput hSame]

theorem DescribesInput.sequences_eq :
  hashSequences (bip143Inputs params params.currentInput) params.inputIndex params.currentInput =
    sequencesHash transaction.inputs := by
  rcases hParams.current with ⟨input, hInput, -, hSeq⟩
  have hSame :
    params.currentInput.sequence.getD 0xffffffff = input.sequence.getD 0xffffffff := hSeq
  unfold hashSequences sequencesHash
  rw [hParams.inputsAt, map_set]
  congr 2
  apply ext_getElem?
  intro index
  grind

end

-- Hashes

theorem computes_cachedHash
  {Sound : SignatureHashCache → Prop} {lookup : SignatureHashCache → Option Bytes}
  {remember : Bytes → SignatureHashCache → SignatureHashCache}
  {compute : TransactionHeap → Except JsError Bytes}
  (hLook : ∀ cache hash, Sound cache → lookup cache = some hash → compute heap = .ok hash)
  (hRemember :
    ∀ cache hash, Sound cache → compute heap = .ok hash → Sound (remember hash cache)) :
  Computes (fun cache => ∀ c ∈ cache, Sound c) heap (cachedHash lookup remember compute)
    (compute heap) := by
  have hMiss :
      Computes (fun cache => ∀ c ∈ cache, Sound c) heap (do
          let heap ← readThe TransactionHeap
          let hash ← StateProgram.ofExcept (compute heap)
          modify fun cache => cache.map (remember hash)
          return hash : SignatureFormat Bytes)
        (compute heap) := by
    have hModify : ∀ hash, compute heap = .ok hash →
          ∀ state : Option SignatureHashCache, (∀ c ∈ state, Sound c) →
            ∀ c ∈ state.map (remember hash), Sound c := by
      intro hash hHash state hInv cache hCache
      rcases Option.map_eq_some_iff.mp hCache with ⟨old, hOld, rfl⟩
      exact hRemember old hash (hInv old hOld) hHash
    have hRun : Computes (fun cache => ∀ c ∈ cache, Sound c) heap
          (StateProgram.ofExcept (compute heap) >>= fun hash =>
            modify (fun cache => cache.map (remember hash)) >>=
              fun _ => pure hash : SignatureFormat Bytes)
          (compute heap >>= fun hash => .ok hash) := by
      apply (computes_ofExcept (compute heap)).bind
      intro hash hHash
      exact (computes_modify (hModify hash hHash)).bind (fun _ _ => computes_pure hash)
    have hRes : (compute heap >>= fun hash => .ok hash) = compute heap :=
      bind_pure (compute heap)
    rw [hRes] at hRun
    exact hRun.bind_read
  intro state hInv
  unfold cachedHash
  rw [bind_run, get_run]
  dsimp only
  cases hFound : state.bind lookup with
  | none => exact hMiss state hInv
  | some hash =>
    rcases Option.bind_eq_some_iff.mp hFound with ⟨cache, hCache, hHash⟩
    rw [hLook cache hash (hInv cache hCache) hHash]
    exact ⟨hInv, rfl⟩

section

variable (hParams : DescribesInput heap transaction params)
include hParams

theorem computes_prevoutsHash : Computes (CacheOf heap transaction) heap (bip143PrevoutsHash params
      (bip143Inputs params params.currentInput) params.currentInput)
    (if params.scope &&& TransactionSignature.SIGHASH_ANYONECANPAY ≠ 0 then .ok zeroHash
    else prevoutsHash heap transaction.inputs) := by
  unfold bip143PrevoutsHash
  split
  · exact computes_pure zeroHash
  · rw [← hParams.prevouts_eq]
    apply computes_cachedHash
    · intro cache hash hSound hFound
      rw [hParams.prevouts_eq]
      exact hSound.prevouts hash hFound
    · intro cache hash hSound hHash
      rw [hParams.prevouts_eq] at hHash
      constructor
      case prevouts =>
        intro other hOther
        cases hOther
        exact hHash
      case sequences => exact hSound.sequences
      case outputsAll => exact hSound.outputsAll
      case outputsSingle => exact hSound.outputsSingle

theorem computes_sequenceHash : Computes (CacheOf heap transaction) heap (bip143SequenceHash params
      (bip143Inputs params params.currentInput) params.currentInput)
    (if params.scope &&& TransactionSignature.SIGHASH_ANYONECANPAY ≠ 0 ∨
        params.scope &&& 31 = TransactionSignature.SIGHASH_SINGLE ∨
        params.scope &&& 31 = TransactionSignature.SIGHASH_NONE then
      .ok zeroHash
    else .ok (sequencesHash transaction.inputs)) := by
  unfold bip143SequenceHash
  dsimp only
  split
  · exact computes_pure zeroHash
  · rw [← hParams.sequences_eq]
    apply computes_cachedHash
    · intro cache hash hSound hFound
      rw [hParams.sequences_eq, hSound.sequences hash hFound]
    · intro cache hash hSound hHash
      rw [hParams.sequences_eq] at hHash
      constructor
      case prevouts => exact hSound.prevouts
      case sequences =>
        intro other hOther
        cases hOther
        cases hHash
        rfl
      case outputsAll => exact hSound.outputsAll
      case outputsSingle => exact hSound.outputsSingle

theorem computes_outputsHash : Computes (CacheOf heap transaction) heap (bip143OutputsHash params)
    (if params.scope &&& 31 ≠ TransactionSignature.SIGHASH_SINGLE ∧
        params.scope &&& 31 ≠ TransactionSignature.SIGHASH_NONE then
      hashOutputs transaction.outputs none
    else if params.scope &&& 31 ≠ TransactionSignature.SIGHASH_SINGLE ∨
        transaction.outputs.length ≤ params.inputIndex then
      .ok zeroHash
    else hashOutputs transaction.outputs (some params.inputIndex)) := by
  unfold bip143OutputsHash
  dsimp only
  rw [hParams.outputs]
  split
  · apply computes_cachedHash
    · intro cache hash hSound hFound
      exact hSound.outputsAll hash hFound
    · intro cache hash hSound hHash
      constructor
      case prevouts => exact hSound.prevouts
      case sequences => exact hSound.sequences
      case outputsAll =>
        intro other hOther
        cases hOther
        exact hHash
      case outputsSingle => exact hSound.outputsSingle
  · split
    · exact computes_pure zeroHash
    · apply computes_cachedHash
      · intro cache hash hSound hFound
        rcases Option.bind_eq_some_iff.mp hFound with ⟨table, hTable, hGet⟩
        exact hSound.outputsSingle table hTable _ hash hGet
      · intro cache hash hSound hHash
        constructor
        case prevouts => exact hSound.prevouts
        case sequences => exact hSound.sequences
        case outputsAll => exact hSound.outputsAll
        case outputsSingle =>
          intro table hTable
          cases hTable
          have hBefore : (cache.hashOutputsSingle.getD []).Sound
                fun index hash => hashOutputs transaction.outputs (some index) = .ok hash := by
            cases hOld : cache.hashOutputsSingle with
            | none => exact MemoTable.sound_nil _
            | some old => exact hSound.outputsSingle old hOld
          exact hBefore.set hHash

end

-- Formats

/- What `formatBip143` computes, whatever the cache holds. -/
def plainBip143 (heap : TransactionHeap) (transaction : Transaction)
  (params : TransactionSignatureFormatParams) : Except JsError Bytes :=
  (if params.scope &&& TransactionSignature.SIGHASH_ANYONECANPAY ≠ 0 then .ok zeroHash
  else prevoutsHash heap transaction.inputs) >>= fun prevouts =>
  (if params.scope &&& TransactionSignature.SIGHASH_ANYONECANPAY ≠ 0 ∨
      params.scope &&& 31 = TransactionSignature.SIGHASH_SINGLE ∨
      params.scope &&& 31 = TransactionSignature.SIGHASH_NONE then
    .ok zeroHash
  else .ok (sequencesHash transaction.inputs)) >>= fun sequences =>
  (if params.scope &&& 31 ≠ TransactionSignature.SIGHASH_SINGLE ∧
      params.scope &&& 31 ≠ TransactionSignature.SIGHASH_NONE then
    hashOutputs transaction.outputs none
  else if params.scope &&& 31 ≠ TransactionSignature.SIGHASH_SINGLE ∨
      transaction.outputs.length ≤ params.inputIndex then
    .ok zeroHash
  else hashOutputs transaction.outputs (some params.inputIndex)) >>= fun outputs =>
  writeBip143 params prevouts sequences outputs

theorem computes_formatBip143 (hParams : DescribesInput heap transaction params) :
  Computes (CacheOf heap transaction) heap (formatBip143 params)
    (plainBip143 heap transaction params) := by
  apply (computes_prevoutsHash hParams).bind
  intro prevouts _
  apply (computes_sequenceHash hParams).bind
  intro sequences _
  apply (computes_outputsHash hParams).bind
  intro outputs _
  exact computes_ofExcept _

/- What `formatBytes` computes, whatever the cache holds. -/
def plainBytes (heap : TransactionHeap) (transaction : Transaction)
  (params : TransactionSignatureFormatParams) : Except JsError Bytes :=
  let hasForkId : Bool := params.scope &&& TransactionSignature.SIGHASH_FORKID ≠ 0
  let hasChronicle : Bool :=
    !params.ignoreChronicle && params.scope &&& TransactionSignature.SIGHASH_CHRONICLE ≠ 0
  if hasForkId && params.sighashForkIdEnabled && !hasChronicle then
    plainBip143 heap transaction params
  else if !params.sighashForkIdEnabled || !hasForkId || hasChronicle then formatOTDA heap params
  else .ok []

theorem computes_formatBytes (hParams : DescribesInput heap transaction params) :
  Computes (CacheOf heap transaction) heap (formatBytes params)
    (plainBytes heap transaction params) := by
  unfold formatBytes plainBytes
  dsimp only
  split
  · exact computes_formatBip143 hParams
  · split
    · apply Computes.bind_read
      exact computes_ofExcept _
    · exact computes_pure []

-- Input Conventions

/- Inputs away from the signed one are all treated alike. -/
theorem mapM_zipIdx_ne {y : β} {start : Nat} (hAway : start + xs.length ≤ index ∨ index < start) :
  ((xs.zipIdx start).mapM fun entry => if entry.2 = index then .ok y else f entry.1) =
    xs.mapM f := by
  induction xs generalizing start with
  | nil => rfl
  | cons x xs ih =>
    rw [length_cons] at hAway
    have hNe : start ≠ index := by omega
    rw [zipIdx_cons, mapM_cons, mapM_cons, if_neg hNe, ih (by omega)]

theorem mapM_zipIdx_eq {y : β} (hIdx : index < xs.length) :
  (xs.zipIdx.mapM fun entry => if entry.2 = index then .ok y else f entry.1) =
    ((xs.eraseIdx index).mapM f >>= fun ys => .ok (spliceInput ys index y)) := by
  have hLen : (xs.take index).length = index := by
    rw [length_take]
    omega
  have hSplit : xs = xs.take index ++ xs[index] :: xs.drop (index + 1) := by
    rw [getElem_cons_drop, take_append_drop]
  have hBefore :
      ((xs.take index).zipIdx.mapM fun entry => if entry.2 = index then .ok y else f entry.1) =
        (xs.take index).mapM f :=
    mapM_zipIdx_ne (Or.inl (by omega))
  have hAfter : (((xs.drop (index + 1)).zipIdx (index + 1)).mapM
          fun entry => if entry.2 = index then .ok y else f entry.1) =
        (xs.drop (index + 1)).mapM f :=
    mapM_zipIdx_ne (Or.inr (by omega))
  rw [eraseIdx_eq_take_drop_succ]
  conv_lhs => rw [hSplit]
  rw [zipIdx_append, zipIdx_cons, mapM_append,
    mapM_cons, mapM_append, hBefore, hLen, Nat.zero_add, hAfter, if_pos rfl]
  cases hPre : (xs.take index).mapM f with
  | error error => rfl
  | ok before =>
    have hCount := (forall₂_of_mapM hPre).length_eq.symm.trans hLen
    cases hPost : (xs.drop (index + 1)).mapM f with
    | error error => rfl
    | ok after =>
      have hPlaced : spliceInput (before ++ after) index y = before ++ y :: after := by
        unfold spliceInput
        rw [take_left' hCount, drop_left' hCount]
      simp only [ok_bind, pure_bind, hPlaced]
      rfl

/- The signed input of `formatOTDA` is placed alike. -/
theorem otdaInputs_eq {heap : TransactionHeap} {transaction : Transaction}
  {params other : TransactionSignatureFormatParams} {zeroSequence : Bool}
  {currentInput : OtdaInput} (hIdx : params.inputIndex < transaction.inputs.length)
  (hAll : params.allInputs = some transaction.inputs) (hNone : other.allInputs = none)
  (hOth : other.otherInputs = transaction.inputs.eraseIdx params.inputIndex)
  (hSame : other.inputIndex = params.inputIndex) : otdaInputs heap zeroSequence other currentInput =
    otdaInputs heap zeroSequence params currentInput := by
  unfold otdaInputs
  rw [hAll, hNone, hOth, hSame]
  exact (mapM_zipIdx_eq hIdx).symm

def TransactionSignatureFormatParams.withOtherInputs
  (params : TransactionSignatureFormatParams) (transaction : Transaction) :
  TransactionSignatureFormatParams :=
  { params with
    otherInputs := transaction.inputs.eraseIdx params.inputIndex
    allInputs := none }

theorem allInputs_of_params {request : SignatureRequest}
  (hParams : request.params heap transaction .allInputs = .ok params) :
  params.allInputs = some transaction.inputs := by
  unfold SignatureRequest.params at hParams
  cases hInput : transaction.inputs[request.inputIndex]? with
  | none =>
    rw [hInput] at hParams
    cases hParams
  | some input =>
    rw [hInput] at hParams
    rcases bind_eq_ok_iff.mp hParams with ⟨txid, -, hRest⟩
    cases txid with
    | none => cases hRest
    | some sourceTXID =>
      cases hRest
      rfl

theorem params_otherInputs
  (request : SignatureRequest) (heap : TransactionHeap) (transaction : Transaction) :
  request.params heap transaction .otherInputs = (request.params heap transaction .allInputs).map
      fun params => params.withOtherInputs transaction := by
  unfold SignatureRequest.params
  cases hInput : transaction.inputs[request.inputIndex]? with
  | none => rfl
  | some input =>
    dsimp only
    cases hTxid : input.resolvedTXID heap with
    | error error => rfl
    | ok txid =>
      cases txid with
      | none => rfl
      | some sourceTXID => rfl

section

variable
    (hIdx : params.inputIndex < transaction.inputs.length)
    (hAll : params.allInputs = some transaction.inputs)

include hIdx hAll

theorem formatOTDA_withOtherInputs :
  formatOTDA heap (params.withOtherInputs transaction) = formatOTDA heap params := by
  have hInputs :=
    fun zeroSequence currentInput =>
      @otdaInputs_eq heap transaction params (params.withOtherInputs transaction) zeroSequence
        currentInput hIdx hAll rfl rfl rfl
  have hOuts : otdaOutputs (params.withOtherInputs transaction) = otdaOutputs params := rfl
  unfold formatOTDA
  simp only [hInputs, hOuts]
  rfl

theorem plainBytes_withOtherInputs :
  plainBytes heap transaction (params.withOtherInputs transaction) =
    plainBytes heap transaction params := by
  have hBip143 : plainBip143 heap transaction (params.withOtherInputs transaction) =
    plainBip143 heap transaction params := rfl
  unfold plainBytes
  rw [hBip143, formatOTDA_withOtherInputs hIdx hAll]
  rfl

end

-- Shared Caches

def SignatureRequest.preimage (heap : TransactionHeap) (transaction : Transaction)
  (request : SignatureRequest) : Except JsError Bytes :=
  request.params heap transaction .allInputs >>= plainBytes heap transaction

theorem computes_format
  (heap : TransactionHeap) (transaction : Transaction) (convention : InputsConvention)
  (request : SignatureRequest) :
  Computes (CacheOf heap transaction) heap (request.format transaction convention)
    (request.preimage heap transaction) := by
  unfold SignatureRequest.format
  apply Computes.bind_read
  have hFormat : Computes (CacheOf heap transaction) heap (StateProgram.ofExcept
            (request.params heap transaction convention) >>=
          formatBytes)
        (request.params heap transaction convention >>= plainBytes heap transaction) := by
    apply (computes_ofExcept _).bind
    intro params hParams
    exact computes_formatBytes (describes_params hParams)
  have hRes : (request.params heap transaction convention >>= plainBytes heap transaction) =
        request.preimage heap transaction := by
    unfold SignatureRequest.preimage
    cases convention with
    | allInputs => rfl
    | otherInputs =>
      rw [params_otherInputs]
      cases hParams : request.params heap transaction .allInputs with
      | error error => rfl
      | ok params =>
        rcases (describes_params hParams).current with ⟨input, hInput, -⟩
        exact plainBytes_withOtherInputs (List.getElem?_eq_some_iff.mp hInput).1
          (allInputs_of_params hParams)
  rw [hRes] at hFormat
  exact hFormat

theorem uncached_eq
  (heap : TransactionHeap) (transaction : Transaction) (convention : InputsConvention)
  (request : SignatureRequest) :
  request.uncached heap transaction convention = request.preimage heap transaction := by
  have hNone : CacheOf heap transaction none := by
    intro cache hCache
    cases hCache
  exact (computes_format heap transaction convention request none hNone).2

theorem formatAll_eq
  (requests : List (InputsConvention × SignatureRequest)) {cache : Option SignatureHashCache}
  (hCache : CacheOf heap transaction cache) :
  formatAll heap transaction requests cache = requests.map fun entry =>
      entry.2.preimage heap transaction := by
  induction requests generalizing cache with
  | nil => rfl
  | cons entry requests ih =>
    rcases entry with ⟨convention, request⟩
    rcases computes_format heap transaction convention request cache hCache with ⟨hNext, hOut⟩
    unfold formatAll
    dsimp only
    rw [map_cons, hOut, ih hNext]

theorem sound_fresh (heap : TransactionHeap) (transaction : Transaction) (hasMap : Bool) :
  (SignatureHashCache.fresh hasMap).Sound heap
    transaction := by
  constructor
  case prevouts =>
    intro hash hHash
    cases hHash
  case sequences =>
    intro hash hHash
    cases hHash
  case outputsAll =>
    intro hash hHash
    cases hHash
  case outputsSingle =>
    intro table hTable
    cases hasMap with
    | false => cases hTable
    | true =>
      cases hTable
      exact MemoTable.sound_nil _

theorem preimages_independent (heap : TransactionHeap) (transaction : Transaction) (hasMap : Bool)
  (requests : List (InputsConvention × SignatureRequest)) :
  formatAll heap transaction requests (some (SignatureHashCache.fresh hasMap)) =
    (requests.map fun entry => entry.2.uncached heap transaction entry.1) ∧
    ∀ request : SignatureRequest, request.uncached heap transaction .allInputs =
        request.uncached heap transaction
          .otherInputs := by
  constructor
  · have hCache : CacheOf heap transaction (some (SignatureHashCache.fresh hasMap)) := by
      intro cache hCache
      cases hCache
      exact sound_fresh heap transaction hasMap
    rw [formatAll_eq requests hCache]
    apply List.map_congr_left
    intro entry _
    exact (uncached_eq heap transaction entry.1 entry.2).symm
  · intro request
    rw [uncached_eq, uncached_eq]

end TsStack
