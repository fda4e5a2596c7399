import TsStack.AirGap.Peeling

/-
  A decoder that is fed the parts of one encoder, unreadable
  texts and stray parts of other sessions.
-/

-- Blocks of Parts

open List Option

namespace TsStack.AirGap

open AirGapDecoder

variable (encoder : AirGapEncoder)

theorem degreeForPart_le_blockCount (seq : Nat) : degreeForPart seq encoder.blockCount ≤
    encoder.blockCount :=
  degreeForPart_le _ encoder.blockCount_pos

variable {seq : Nat}

theorem encoder_partBlocks (hSeq : encoder.blockCount ≤ seq) :
  encoder.partBlocks seq = fullBlocksForPart seq encoder.blockCount := by
  unfold AirGapEncoder.partBlocks
  rw [if_neg (by omega)]
  exact blocksForPart_eq_full encoder.blockCount_pos (degreeForPart_le_blockCount encoder seq)

theorem decoder_partBlocks (seq : Nat) : partBlocks seq encoder.blockCount =
    if encoder.blockCount ≤ seq ∧ MAX_PENDING_INDICES < degreeForPart seq encoder.blockCount then
      []
    else encoder.partBlocks seq := by
  by_cases hSeq : seq < encoder.blockCount
  · unfold partBlocks AirGapEncoder.partBlocks
    rw [if_pos hSeq, if_pos hSeq, if_neg (by omega)]
  have hLe : encoder.blockCount ≤ seq := Nat.le_of_not_lt hSeq
  unfold partBlocks
  rw [if_neg hSeq]
  by_cases hDegree : MAX_PENDING_INDICES < degreeForPart seq encoder.blockCount
  · rw [if_pos ⟨hLe, hDegree⟩]
    exact blocksForPart_eq_nil hDegree
  · rw [if_neg (fun hBoth => hDegree hBoth.2), encoder_partBlocks encoder hLe]
    exact blocksForPart_eq_full encoder.blockCount_pos (Nat.le_of_not_lt hDegree)

theorem partBlocks_nodup (seq : Nat) : (encoder.partBlocks seq).Nodup := by
  by_cases hSeq : seq < encoder.blockCount
  · unfold AirGapEncoder.partBlocks
    rw [if_pos hSeq]
    exact nodup_singleton seq
  · rw [encoder_partBlocks encoder (Nat.le_of_not_lt hSeq)]
    exact fullBlocksForPart_nodup encoder.blockCount_pos

theorem partBlocks_lt {index : Nat} (hIdx : index ∈ encoder.partBlocks seq) :
  index < encoder.blockCount := by
  by_cases hSeq : seq < encoder.blockCount
  · unfold AirGapEncoder.partBlocks at hIdx
    rw [if_pos hSeq, mem_singleton] at hIdx
    omega
  · rw [encoder_partBlocks encoder (Nat.le_of_not_lt hSeq)] at hIdx
    exact fullBlocksForPart_lt encoder.blockCount_pos hIdx

theorem dedup_partBlocks (seq : Nat) :
  (partBlocks seq encoder.blockCount).dedup = [] ∧ encoder.blockCount ≤ seq ∨
    (partBlocks seq encoder.blockCount).dedup = encoder.partBlocks seq := by
  rw [decoder_partBlocks]
  split
  · rename_i hBoth
    exact .inl ⟨rfl, hBoth.1⟩
  · right
    exact dedup_eq_self.mpr (partBlocks_nodup encoder seq)

theorem mixes_part (seq : Nat) : Mixes encoder {
    indices := encoder.partBlocks seq
    payload := (encoder.part seq).payload } :=
  ⟨partBlocks_nodup encoder seq,
    fun _ hIdx => partBlocks_lt encoder hIdx, encoder.payloadAt_eq seq⟩

-- Parts of the Session

structure Receiving (encoder : AirGapEncoder) (decoder : AirGapDecoder) : Prop where
  key : decoder.key = some encoder.key
  total : decoder.total = encoder.blockCount
  msgLen : decoder.msgLen = encoder.messageLength
  crc : decoder.crc = encoder.crc
  blockBytes : decoder.blockBytes = 0 ∨ decoder.blockBytes = encoder.blockBytes
  pinned : decoder.blockBytes ≠ 0 ∨ ∀ index, decoder.solved index = none
  blocks : Blocks encoder decoder
  settled : Settled decoder
  seen : ∀ seq ∈ decoder.seen, seq < encoder.blockCount → (decoder.solved seq).isSome = true

/- What one part of the session leaves as it was. -/
structure Continues (before after : AirGapDecoder) : Prop where
  candidateKey : after.candidateKey = before.candidateKey
  candidateCount : after.candidateCount = before.candidateCount
  solved : ∀ index, (before.solved index).isSome = true → (after.solved index).isSome = true

theorem Continues.refl (decoder : AirGapDecoder) : Continues decoder decoder :=
  ⟨rfl, rfl, fun _ hSome => hSome⟩

theorem SameSession.continues {before after : AirGapDecoder} (hSame : SameSession before after) :
  Continues before after :=
  ⟨hSame.candidateKey, hSame.candidateCount, hSame.solved⟩

theorem Continues.trans {first second third : AirGapDecoder} (hFst : Continues first second)
  (hSnd : Continues second third) : Continues first third :=
  ⟨hSnd.candidateKey.trans hFst.candidateKey,
    hSnd.candidateCount.trans hFst.candidateCount,
    fun index hSome => hSnd.solved index (hFst.solved index hSome)⟩

variable {encoder : AirGapEncoder} {decoder : AirGapDecoder}

section

variable (hReceiving : Receiving encoder decoder)

include hReceiving

theorem Receiving.sameSession {after : AirGapDecoder}
  (hSame : SameSession decoder after) (hBytes : decoder.blockBytes ≠ 0)
  (hBlocks : Blocks encoder after) (hSettle : Settled after) : Receiving encoder after := by
  constructor
  case key => rw [hSame.key, hReceiving.key]
  case total => rw [hSame.total, hReceiving.total]
  case msgLen => rw [hSame.msgLen, hReceiving.msgLen]
  case crc => rw [hSame.crc, hReceiving.crc]
  case blockBytes =>
    rw [hSame.blockBytes]
    exact hReceiving.blockBytes
  case pinned =>
    left
    rw [hSame.blockBytes]
    exact hBytes
  case blocks => exact hBlocks
  case settled => exact hSettle
  case seen =>
    intro seq hSeq hLt
    rw [hSame.seen] at hSeq
    exact hSame.solved seq (hReceiving.seen seq hSeq hLt)

theorem Receiving.remember
  (hSolved : seq < encoder.blockCount → (decoder.solved seq).isSome = true) :
  Receiving encoder (decoder.remember seq) ∧ Continues decoder (decoder.remember seq) := by
  unfold AirGapDecoder.remember
  split
  · refine ⟨?_, rfl, rfl, fun _ hSome => hSome⟩
    constructor
    case key => exact hReceiving.key
    case total => exact hReceiving.total
    case msgLen => exact hReceiving.msgLen
    case crc => exact hReceiving.crc
    case blockBytes => exact hReceiving.blockBytes
    case pinned => exact hReceiving.pinned
    case blocks => exact ⟨hReceiving.blocks.sound, hReceiving.blocks.count, hReceiving.blocks.mixes⟩
    case settled => exact hReceiving.settled
    case seen =>
      intro other hOther hLt
      rcases mem_insert_iff.mp hOther with hEq | hOld
      · rw [hEq] at hLt ⊢
        exact hSolved hLt
      · exact hReceiving.seen other hOld hLt
  · exact ⟨hReceiving, Continues.refl decoder⟩

theorem Receiving.pend {part : PendingPart} (hMixes : Mixes encoder part)
  (hUnsolved : ∀ index ∈ part.indices, decoder.solved index = none) :
  Receiving encoder (decoder.pend part) := by
  constructor
  case key => exact hReceiving.key
  case total => exact hReceiving.total
  case msgLen => exact hReceiving.msgLen
  case crc => exact hReceiving.crc
  case blockBytes => exact hReceiving.blockBytes
  case pinned => exact hReceiving.pinned
  case blocks =>
    refine ⟨hReceiving.blocks.sound, hReceiving.blocks.count, ?_⟩
    intro other hOther
    rcases mem_append.mp hOther with hOld | hLast
    · exact hReceiving.blocks.mixes other hOld
    · rw [mem_singleton.mp hLast]
      exact hMixes
  case settled =>
    intro other hOther index hIdx
    rcases mem_append.mp hOther with hOld | hLast
    · exact hReceiving.settled other hOld index hIdx
    · rw [mem_singleton.mp hLast] at hIdx
      exact hUnsolved index hIdx
  case seen => exact hReceiving.seen

end

theorem reduce_systematic (solved : Nat → Option Bytes) (seq : Nat) (payload : Bytes) :
  (reduce solved {
      indices := [seq], payload }).indices =
    if (solved seq).isSome then [] else [seq] := by
  unfold reduce
  rw [indices_reduceFrom, filter_cons]
  cases solved seq with
  | none => rfl
  | some bytes => rfl

theorem Receiving.ingest
  (hReceiving : Receiving encoder decoder) (hBytes : decoder.blockBytes ≠ 0) (seq : Nat) :
  Receiving encoder (decoder.ingest (encoder.part seq)).2 ∧
    Continues decoder (decoder.ingest (encoder.part seq)).2 ∧
    (seq < encoder.blockCount → ((decoder.ingest (encoder.part seq)).2.solved seq).isSome = true ∧
        (decoder.ingest (encoder.part seq)).1.ok = true) := by
  have hSystematic : seq < encoder.blockCount → encoder.partBlocks seq = [seq] := by
    intro hSeq
    unfold AirGapEncoder.partBlocks
    exact if_pos hSeq
  rcases reduce_mixes hReceiving.blocks.sound (mixes_part encoder seq) with ⟨hMixes, hUnsolved⟩
  have hOwn :
      seq < encoder.blockCount → (reduce decoder.solved {
          indices := encoder.partBlocks seq
          payload := (encoder.part seq).payload }).indices =
        if (decoder.solved seq).isSome then []
        else [seq] := by
    intro hSeq
    rw [hSystematic hSeq]
    exact reduce_systematic decoder.solved seq _
  have hBlocks : partBlocks (encoder.part seq).seq decoder.total =
        partBlocks seq encoder.blockCount :=
    congrArg (partBlocks seq) hReceiving.total
  unfold AirGapDecoder.ingest
  rw [hBlocks]
  rcases dedup_partBlocks encoder seq with ⟨hNone, hLe⟩ | hSame
  · rw [hNone]
    simp only [length_nil, if_true]
    refine ⟨hReceiving, Continues.refl decoder, ?_⟩
    intro hSeq
    omega
  rw [hSame]
  simp only
  split
  · rename_i hEmpty
    refine ⟨hReceiving, Continues.refl decoder, ?_⟩
    intro hSeq
    rw [hSystematic hSeq] at hEmpty
    cases hEmpty
  split
  · rename_i hMany
    have hNot : ¬ seq < encoder.blockCount := by
      intro hSeq
      rw [hOwn hSeq] at hMany
      split at hMany
      · exact Nat.not_lt_zero 1 hMany
      · exact Nat.lt_irrefl 1 hMany
    split
    · exact ⟨hReceiving, Continues.refl decoder, fun hSeq => absurd hSeq hNot⟩
    · rcases (hReceiving.pend hMixes hUnsolved).remember (fun hSeq => absurd hSeq hNot) with
        ⟨hKept, hContinues⟩
      exact ⟨hKept, ⟨hContinues.candidateKey, hContinues.candidateCount, hContinues.solved⟩,
        fun hSeq => absurd hSeq hNot⟩
  split
  · rename_i hOne
    rcases hReceiving.blocks.solve hMixes hUnsolved hOne with ⟨hOneBlocks, hSolve, -, hSome⟩
    rcases hOneBlocks.cascade with ⟨hAll, hCascade, hSettle⟩
    have hBoth := hSolve.trans hCascade
    have hKept := hReceiving.sameSession hBoth hBytes hAll hSettle
    have hBlock :
        seq < encoder.blockCount → ((decoder.solve (reduce decoder.solved {
            indices := encoder.partBlocks seq
            payload := (encoder.part seq).payload })).cascade.solved
          seq).isSome = true := by
      intro hSeq
      by_cases hOld : (decoder.solved seq).isSome = true
      · exact hBoth.solved seq hOld
      · apply hCascade.solved
        apply hSome
        rw [hOwn hSeq, if_neg hOld]
        exact mem_singleton.mpr rfl
    rcases hKept.remember hBlock with ⟨hLast, hContinues⟩
    refine ⟨hLast, hBoth.continues.trans hContinues, ?_⟩
    intro hSeq
    exact ⟨hContinues.solved seq (hBlock hSeq), rfl⟩
  · rename_i hMany hOne
    have hBlock : seq < encoder.blockCount → (decoder.solved seq).isSome = true := by
      intro hSeq
      by_contra hNone
      rw [hOwn hSeq, if_neg hNone] at hOne
      exact hOne rfl
    rcases hReceiving.remember hBlock with ⟨hLast, hContinues⟩
    refine ⟨hLast, hContinues, ?_⟩
    intro hSeq
    exact ⟨hContinues.solved seq (hBlock hSeq), rfl⟩

-- Streams

def textKey (text : PartText) : Option SessionKey :=
  (parse text).map ParsedPart.key

def sightings (key : SessionKey) (texts : List PartText) : Nat :=
  texts.countP fun text => textKey text = some key

/-
  Genuine parts of a session with unreadable texts and parts of other sessions: no other session
  is named as often as makes a decoder switch, unless a part of another one stands between.
-/
structure MixedStream (encoder : AirGapEncoder) (texts : List PartText) : Prop where
  genuine : ∀ text ∈ texts, textKey text = some encoder.key → ∃ seq, encoder.partAt seq = .ok text
  foreign : ∀ other run, other ≠ encoder.key → run <:+: texts → (∀ text ∈ run,
        textKey text = none ∨ textKey text = some other) →
      sightings other run < SESSION_SWITCH_PARTS

structure LockedStream (encoder : AirGapEncoder) (texts : List PartText) : Prop
  extends MixedStream encoder texts where
  first : ∀ key, (texts.filterMap textKey).head? = some key → key = encoder.key

def Candidates (encoder : AirGapEncoder) (texts : List PartText) (decoder : AirGapDecoder) : Prop :=
  ∀ other, other ≠ encoder.key → decoder.candidateKey = some other →
    ∃ run, run <:+ texts ∧ (∀ text ∈ run, textKey text = none ∨ textKey text = some other) ∧
      sightings other run = decoder.candidateCount

def Fed (encoder : AirGapEncoder) (texts : List PartText) (decoder : AirGapDecoder) : Prop :=
  ∀ seq text, seq < encoder.blockCount → encoder.partAt seq = .ok text → text ∈ texts →
    (decoder.solved seq).isSome = true

inductive StreamHolds
  (encoder : AirGapEncoder) (texts : List PartText) (decoder : AirGapDecoder) : Prop where
| waiting
    (hReset : decoder = AirGapDecoder.reset) (hNone : ∀ text ∈ texts, textKey text = none)
| receiving
    (hReceiving : Receiving encoder decoder) (hCandidates : Candidates encoder texts decoder)
    (hFed : Fed encoder texts decoder)

theorem Receiving.isDone_iff (hReceiving : Receiving encoder decoder) :
  decoder.isDone = true ↔ ∀ seq < encoder.blockCount, (decoder.solved seq).isSome = true := by
  have hPos := encoder.blockCount_pos
  unfold isDone
  rw [hReceiving.total, hReceiving.blocks.count,
    Bool.and_eq_true, decide_eq_true_eq, decide_eq_true_eq]
  constructor
  · rintro ⟨-, hCard⟩ seq hSeq
    exact isSome_of_card hCard hSeq
  · intro hAll
    exact ⟨hPos, card_of_isSome hAll⟩

theorem receiving_startSession : Receiving encoder (startSession (some encoder.key)
      encoder.blockCount encoder.messageLength encoder.crc) := by
  constructor
  case key => rfl
  case total => rfl
  case msgLen => rfl
  case crc => rfl
  case blockBytes => exact .inl rfl
  case pinned => exact .inr fun _ => rfl
  case blocks =>
    constructor
    case sound =>
      intro index bytes hIdx
      cases hIdx
    case count =>
      unfold solvedIndices startSession
      rw [Finset.filter_false_of_mem]
      · rfl
      · intro index _ hSome
        cases hSome
    case mixes =>
      intro part hPart
      cases hPart
  case settled =>
    intro part hPart
    cases hPart
  case seen =>
    intro seq hSeq
    cases hSeq

theorem Receiving.acceptPart (hReceiving : Receiving encoder decoder) (seq : Nat) :
  Receiving encoder (decoder.acceptPart (encoder.part seq)).2 ∧
    Continues decoder (decoder.acceptPart (encoder.part seq)).2 ∧
    (seq < encoder.blockCount → ((decoder.acceptPart
        (encoder.part seq)).2.solved seq).isSome = true ∧
      (decoder.acceptPart (encoder.part seq)).1.ok = true) := by
  have hLen : (encoder.part seq).payload.length =
        encoder.blockBytes :=
    encoder.length_payloadAt seq
  unfold AirGapDecoder.acceptPart
  rw [hLen]
  split
  · rename_i hDone
    exact ⟨hReceiving, Continues.refl decoder, fun hSeq =>
      ⟨hReceiving.isDone_iff.mp hDone seq hSeq, rfl⟩⟩
  split
  · rename_i hBytes
    rcases hReceiving.blockBytes with hZero | hSame
    · exact absurd hZero hBytes.1
    · exact absurd hSame.symm hBytes.2
  have hBytes : encoder.blockBytes ≠ 0 := by
    have hPos := encoder.blockBytes_pos
    omega
  have hPinned : Receiving encoder { decoder with blockBytes := encoder.blockBytes } := by
    constructor
    case key => exact hReceiving.key
    case total => exact hReceiving.total
    case msgLen => exact hReceiving.msgLen
    case crc => exact hReceiving.crc
    case blockBytes => exact .inr rfl
    case pinned => exact .inl hBytes
    case blocks => exact ⟨hReceiving.blocks.sound, hReceiving.blocks.count, hReceiving.blocks.mixes⟩
    case settled => exact hReceiving.settled
    case seen => exact hReceiving.seen
  simp only
  split
  · rename_i hSeen
    exact ⟨hPinned, ⟨rfl, rfl, fun _ hSome => hSome⟩,
      fun hSeq => ⟨hPinned.seen seq hSeen hSeq, rfl⟩⟩
  · rcases hPinned.ingest hBytes seq with ⟨hKept, hContinues, hSystematic⟩
    exact ⟨hKept, ⟨hContinues.candidateKey, hContinues.candidateCount,
      hContinues.solved⟩, hSystematic⟩

-- One Text

variable {texts : List PartText} {text : PartText}

theorem seq_of_partAt {first second : Nat} (hFst : encoder.partAt first = .ok text)
  (hSnd : encoder.partAt second = .ok text) : first = second := by
  have hSame := (parse_partAt encoder hFst).symm.trans (parse_partAt encoder hSnd)
  exact congrArg ParsedPart.seq (some.inj hSame)

theorem Fed.append (hFed : Fed encoder texts decoder) {after : AirGapDecoder}
  (hSolved : ∀ index, (decoder.solved index).isSome = true → (after.solved index).isSome = true)
  (hText : ∀ seq, seq < encoder.blockCount →
    encoder.partAt seq = .ok text → (after.solved seq).isSome = true) :
  Fed encoder (texts ++ [text]) after := by
  intro seq other hSeq hPart hOther
  rcases mem_append.mp hOther with hOld | hLast
  · exact hSolved seq (hFed seq other hSeq hPart hOld)
  · rw [mem_singleton.mp hLast] at hPart
    exact hText seq hSeq hPart

theorem textKey_of_partAt (hPart : encoder.partAt seq = .ok text) :
  textKey text = some encoder.key := by
  unfold textKey
  rw [parse_partAt encoder hPart]
  rfl

theorem streamHolds_genuine
  (hReceiving : Receiving encoder decoder) (hCand : decoder.candidateKey = none)
  (hPart : encoder.partAt seq = .ok text) (hFed : Fed encoder texts decoder) :
  StreamHolds encoder (texts ++ [text]) (decoder.acceptPart (encoder.part seq)).2 := by
  rcases hReceiving.acceptPart seq with ⟨hKept, hContinues, hSystematic⟩
  apply StreamHolds.receiving hKept
  · intro other _ hOther
    rw [hContinues.candidateKey, hCand] at hOther
    cases hOther
  · apply hFed.append hContinues.solved
    intro other hLt hOther
    have hEq := seq_of_partAt hPart hOther
    rw [← hEq] at hLt ⊢
    exact (hSystematic hLt).1

theorem streamHolds_invalid
  (hHold : StreamHolds encoder texts decoder) (hText : textKey text = none) :
  StreamHolds encoder (texts ++ [text]) decoder := by
  have hNot : ∀ seq, encoder.partAt seq ≠ .ok text := by
    intro seq hPart
    rw [textKey_of_partAt hPart] at hText
    cases hText
  cases hHold with
  | waiting hReset hNone =>
    apply StreamHolds.waiting hReset
    intro other hOther
    rcases mem_append.mp hOther with hOld | hLast
    · exact hNone other hOld
    · rw [mem_singleton.mp hLast]
      exact hText
  | receiving hReceiving hCandidates hFed =>
    apply StreamHolds.receiving hReceiving
    · intro other hNe hOther
      rcases hCandidates other hNe hOther with ⟨run, hRun, hAll, hCount⟩
      refine ⟨run ++ [text], ?_, ?_, ?_⟩
      · exact (suffix_append_self_iff).mpr hRun
      · intro item hItem
        rcases mem_append.mp hItem with hOld | hLast
        · exact hAll item hOld
        · rw [mem_singleton.mp hLast]
          exact .inl hText
      · unfold sightings at hCount ⊢
        rw [countP_append, hCount, countP_singleton]
        simp only [hText, reduceCtorEq, decide_false]
        rfl
    · exact hFed.append (fun _ hSome => hSome) (fun seq _ hPart => absurd hPart (hNot seq))

theorem streamHolds_foreign
  (hStream : MixedStream encoder (texts ++ [text])) (hReceiving : Receiving encoder decoder)
  (hCandidates : Candidates encoder texts decoder) (hFed : Fed encoder texts decoder)
  {part : ParsedPart} (hText : parse text = some part) (hForeign : part.key ≠ encoder.key) :
  (decoder.enterSession part).1 = false ∧
    StreamHolds encoder (texts ++ [text]) (decoder.enterSession part).2 := by
  have hKey : textKey text = some part.key := by
    unfold textKey
    rw [hText]
    rfl
  have hNot : ∀ seq, encoder.partAt seq ≠ .ok text := by
    intro seq hPart
    rw [textKey_of_partAt hPart] at hKey
    exact hForeign (some.inj hKey).symm
  have hLocked : decoder.key ≠ none := by
    rw [hReceiving.key]
    exact some_ne_none _
  have hOther : decoder.key ≠ some part.key := by
    rw [hReceiving.key]
    exact fun hEq => hForeign (some.inj hEq).symm
  -- The run of sightings that the new count stands for.
  have hRun : ∃ run, run <:+ texts ++ [text] ∧ (∀ item ∈ run,
          textKey item = none ∨ textKey item = some part.key) ∧
        sightings part.key run = (if decoder.candidateKey = some part.key then
            decoder.candidateCount + 1
          else 1) := by
    have hOne : sightings part.key [text] = 1 := by
      unfold sightings
      rw [countP_singleton, hKey]
      simp only [decide_true, if_true]
    split
    · rename_i hSame
      rcases hCandidates part.key hForeign hSame with ⟨run, hSuf, hAll, hCount⟩
      refine ⟨run ++ [text], ?_, ?_, ?_⟩
      · exact (suffix_append_self_iff).mpr hSuf
      · intro item hItem
        rcases mem_append.mp hItem with hOld | hLast
        · exact hAll item hOld
        · rw [mem_singleton.mp hLast]
          exact .inr hKey
      · unfold sightings at hCount hOne ⊢
        rw [countP_append, hCount, hOne]
    · refine ⟨[text], suffix_append _ _, ?_, hOne⟩
      intro item hItem
      rw [mem_singleton.mp hItem]
      exact .inr hKey
  rcases hRun with ⟨run, hSuf, hAll, hCount⟩
  have hFew := hStream.foreign part.key run hForeign hSuf.isInfix hAll
  rw [hCount] at hFew
  unfold enterSession
  rw [if_neg hLocked, if_neg hOther]
  simp only
  rw [if_pos hFew]
  refine ⟨rfl, ?_⟩
  apply StreamHolds.receiving
  · exact ⟨hReceiving.key, hReceiving.total, hReceiving.msgLen,
      hReceiving.crc, hReceiving.blockBytes, hReceiving.pinned,
      ⟨hReceiving.blocks.sound, hReceiving.blocks.count, hReceiving.blocks.mixes⟩,
      hReceiving.settled, hReceiving.seen⟩
  · intro other _ hEq
    have hSame := some.inj hEq
    subst hSame
    exact ⟨run, hSuf, hAll, hCount⟩
  · exact hFed.append (fun _ hSome => hSome) (fun seq _ hPart => absurd hPart (hNot seq))

-- Runs

theorem StreamHolds.accept_genuine
  (hHold : StreamHolds encoder texts decoder) (hPart : encoder.partAt seq = .ok text) :
  ∃ entered, Receiving encoder entered ∧ entered.candidateKey = none ∧ Fed encoder texts entered ∧
      decoder.accept text = entered.acceptPart (encoder.part seq) := by
  unfold accept
  rw [parse_partAt encoder hPart]
  simp only
  cases hHold with
  | waiting hReset hNone =>
    refine ⟨_, receiving_startSession, rfl, ?_, ?_⟩
    · intro other item _ hOther hItem
      have hKey := hNone item hItem
      rw [textKey_of_partAt hOther] at hKey
      cases hKey
    · rw [hReset]
      rfl
  | receiving hReceiving hCandidates hFed =>
    have hLocked : decoder.key ≠ none := by
      rw [hReceiving.key]
      exact some_ne_none _
    have hOwn : decoder.key = some (encoder.part seq).key := hReceiving.key
    have hEntered :
        decoder.enterSession (encoder.part seq) = (true, {
          decoder with
          candidateKey := none
          candidateCount := 0 }) := by
      unfold enterSession
      simp only
      rw [if_neg hLocked, if_pos hOwn]
    rw [hEntered, if_pos rfl]
    refine ⟨_, ?_, rfl, ?_, rfl⟩
    · exact ⟨hReceiving.key, hReceiving.total, hReceiving.msgLen, hReceiving.crc,
        hReceiving.blockBytes, hReceiving.pinned,
        ⟨hReceiving.blocks.sound, hReceiving.blocks.count, hReceiving.blocks.mixes⟩,
        hReceiving.settled, hReceiving.seen⟩
    · exact hFed

theorem StreamHolds.accept (hStream : LockedStream encoder (texts ++ [text]))
  (hHold : StreamHolds encoder texts decoder) :
  StreamHolds encoder (texts ++ [text]) (decoder.accept text).2 := by
  have hLast : text ∈ texts ++ [text] := mem_append_right _ (mem_singleton.mpr rfl)
  cases hText : parse text with
  | none =>
    have hKey : textKey text = none := by
      unfold textKey
      rw [hText]
      rfl
    unfold AirGapDecoder.accept
    rw [hText]
    exact streamHolds_invalid hHold hKey
  | some part =>
  have hKey : textKey text = some part.key := by
    unfold textKey
    rw [hText]
    rfl
  by_cases hGenuine : part.key = encoder.key
  · rw [hGenuine] at hKey
    rcases hStream.genuine text hLast hKey with ⟨seq, hPart⟩
    rcases hHold.accept_genuine hPart with ⟨entered, hReceiving, hCand, hFed, hEq⟩
    rw [hEq]
    exact streamHolds_genuine hReceiving hCand hPart hFed
  unfold AirGapDecoder.accept
  rw [hText]
  simp only
  cases hHold with
  | waiting hReset hNone =>
    have hEmpty : texts.filterMap textKey = [] := filterMap_eq_nil_iff.mpr hNone
    have hHead : ((texts ++ [text]).filterMap textKey).head? = some part.key := by
      rw [filterMap_append, hEmpty, nil_append, filterMap_cons, hKey]
      rfl
    exact absurd (hStream.first part.key hHead) hGenuine
  | receiving hReceiving hCandidates hFed =>
    rcases streamHolds_foreign hStream.toMixedStream hReceiving hCandidates hFed hText hGenuine with
      ⟨hStay, hKept⟩
    rw [hStay, if_neg (by decide)]
    exact hKept

theorem single_blockCount_le (byte : UInt8) : ceilDiv [byte].length 1 ≤ MAX_BLOCK_COUNT := by
  unfold ceilDiv MAX_BLOCK_COUNT
  rw [length_singleton]
  decide

def single (byte : UInt8) : AirGapEncoder := {
  message := [byte]
  blockBytes := 1
  session := List.replicate 8 0
  message_ne := Nat.one_ne_zero
  message_le := Nat.le_of_ble_eq_true rfl
  blockBytes_pos := Nat.one_pos
  blockBytes_le := Nat.le_of_ble_eq_true rfl
  blockCount_le := single_blockCount_le byte
  session_length := List.length_replicate }

end TsStack.AirGap
