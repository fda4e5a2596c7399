import TsStack.AirGap.Decoder
import Mathlib.Data.Finset.Card

/-
  What peeling keeps of the blocks of one encoder: solved
  blocks are source blocks, and pending parts are mixes of
  blocks that are not solved.
-/

-- Parts and Blocks

open List Option

namespace TsStack.AirGap

open Function

def Sound (encoder : AirGapEncoder) (solved : Nat → Option Bytes) : Prop :=
  ∀ index bytes, solved index = some bytes →
    index < encoder.blockCount ∧ bytes = encoder.block index

structure Mixes (encoder : AirGapEncoder) (part : PendingPart) : Prop where
  nodup : part.indices.Nodup
  lt : ∀ index ∈ part.indices, index < encoder.blockCount
  payload : part.payload = mixed xorInto encoder.block part.indices encoder.zeros

def solvedIndices (encoder : AirGapEncoder) (solved : Nat → Option Bytes) : Finset Nat :=
  (Finset.range encoder.blockCount).filter fun index => (solved index).isSome = true

theorem indices_reduceFrom (solved : Nat → Option Bytes) (indices : List Nat) (payload : Bytes) :
  (reduceFrom solved indices payload).indices =
    indices.filter fun index => !(solved index).isSome := by
  induction indices generalizing payload with
  | nil => rfl
  | cons index indices ih =>
    rw [reduceFrom, filter_cons]
    cases hIdx : solved index with
    | none =>
      simp only [isSome_none, Bool.not_false, if_true]
      rw [ih]
    | some known =>
      simp only [isSome_some, Bool.not_true]
      exact ih _

variable {encoder : AirGapEncoder} {solved : Nat → Option Bytes}

theorem payload_reduceFrom (hSound : Sound encoder solved) (indices : List Nat) (payload : Bytes) :
  (reduceFrom solved indices payload).payload = mixed xorInto encoder.block
      (indices.filter fun index => (solved index).isSome)
      payload := by
  induction indices generalizing payload with
  | nil => rfl
  | cons index indices ih =>
    rw [reduceFrom, filter_cons]
    cases hIdx : solved index with
    | none =>
      simp only [isSome_none]
      exact ih payload
    | some known =>
      simp only [isSome_some, if_true]
      rw [mixed_cons, ← (hSound index known hIdx).2]
      exact ih _

variable {part : PendingPart}

theorem reduce_mixes (hSound : Sound encoder solved) (hMixes : Mixes encoder part) :
  Mixes encoder (reduce solved part) ∧
    ∀ index ∈ (reduce solved part).indices, solved index = none := by
  have hIndices := indices_reduceFrom solved part.indices part.payload
  have hPayload := payload_reduceFrom hSound part.indices part.payload
  unfold reduce
  constructor
  · constructor
    case nodup =>
      rw [hIndices]
      exact hMixes.nodup.filter _
    case lt =>
      intro index hIdx
      rw [hIndices] at hIdx
      exact hMixes.lt index (mem_of_mem_filter hIdx)
    case payload =>
      rw [hIndices, hPayload, hMixes.payload]
      exact mixed_filter xorInto_laws _ _ _
  · intro index hIdx
    rw [hIndices] at hIdx
    have hNone := (mem_filter.mp hIdx).2
    rw [Bool.not_eq_true', isSome_eq_false_iff, isNone_iff_eq_none] at hNone
    exact hNone

variable {index : Nat}

theorem Mixes.single (hMixes : Mixes encoder part) (hIndices : part.indices = [index]) :
  part.payload = encoder.block index := by
  have hIdx : index < encoder.blockCount := by
    apply hMixes.lt
    rw [hIndices]
    exact mem_singleton.mpr rfl
  have hZeros := xorInto_zeros (encoder.block index)
  rw [encoder.length_block hIdx] at hZeros
  rw [hMixes.payload, hIndices]
  exact hZeros

theorem Sound.update (hSound : Sound encoder solved) (hIdx : index < encoder.blockCount) :
  Sound encoder (update solved index (some (encoder.block index))) := by
  intro other bytes hOther
  by_cases hEq : other = index
  · subst hEq
    rw [update_self] at hOther
    exact ⟨hIdx, (some.inj hOther).symm⟩
  · rw [update_of_ne hEq] at hOther
    exact hSound other bytes hOther

theorem card_update
  (hIdx : index < encoder.blockCount) (hNone : solved index = none) (bytes : Bytes) :
  (solvedIndices encoder (update solved index (some bytes))).card =
    (solvedIndices encoder solved).card + 1 := by
  have hNot : index ∉ solvedIndices encoder solved := by
    intro hMem
    have hSome := (Finset.mem_filter.mp hMem).2
    rw [hNone] at hSome
    cases hSome
  have hInsert : solvedIndices encoder (update solved index (some bytes)) =
        insert index (solvedIndices encoder solved) := by
    ext other
    simp only [solvedIndices, Finset.mem_filter, Finset.mem_insert, Finset.mem_range]
    by_cases hEq : other = index
    · subst hEq
      rw [update_self]
      simp only [isSome_some, and_true, true_or]
      exact iff_true_intro hIdx
    · rw [update_of_ne hEq]
      simp only [hEq, false_or]
  rw [hInsert, Finset.card_insert_of_notMem hNot]

theorem isSome_of_card (hCard : (solvedIndices encoder solved).card = encoder.blockCount)
  (hIdx : index < encoder.blockCount) : (solved index).isSome = true := by
  have hAll : solvedIndices encoder solved = Finset.range encoder.blockCount := by
    apply Finset.eq_of_subset_of_card_le
    · exact Finset.filter_subset _ _
    · rw [hCard, Finset.card_range]
  have hMem : index ∈ solvedIndices encoder solved := by
    rw [hAll]
    exact Finset.mem_range.mpr hIdx
  exact (Finset.mem_filter.mp hMem).2

theorem card_of_isSome (hAll : ∀ index < encoder.blockCount, (solved index).isSome = true) :
  (solvedIndices encoder solved).card =
    encoder.blockCount := by
  unfold solvedIndices
  rw [Finset.filter_true_of_mem, Finset.card_range]
  intro index hIdx
  exact hAll index (Finset.mem_range.mp hIdx)

-- Solving

structure Blocks (encoder : AirGapEncoder) (decoder : AirGapDecoder) : Prop where
  sound : Sound encoder decoder.solved
  count : decoder.solvedCount = (solvedIndices encoder decoder.solved).card
  mixes : ∀ part ∈ decoder.pending, Mixes encoder part

def Settled (decoder : AirGapDecoder) : Prop :=
  ∀ part ∈ decoder.pending, ∀ index ∈ part.indices, decoder.solved index = none

structure SameSession (before after : AirGapDecoder) : Prop where
  key : after.key = before.key
  total : after.total = before.total
  msgLen : after.msgLen = before.msgLen
  crc : after.crc = before.crc
  blockBytes : after.blockBytes = before.blockBytes
  seen : after.seen = before.seen
  candidateKey : after.candidateKey = before.candidateKey
  candidateCount : after.candidateCount = before.candidateCount
  solved : ∀ index, (before.solved index).isSome = true → (after.solved index).isSome = true

theorem SameSession.refl (decoder : AirGapDecoder) : SameSession decoder decoder :=
  ⟨rfl, rfl, rfl, rfl, rfl, rfl, rfl, rfl, fun _ hSome => hSome⟩

theorem SameSession.trans {first second third : AirGapDecoder} (hFst : SameSession first second)
  (hSnd : SameSession second third) : SameSession first third := by
  constructor
  case key => rw [hSnd.key, hFst.key]
  case total => rw [hSnd.total, hFst.total]
  case msgLen => rw [hSnd.msgLen, hFst.msgLen]
  case crc => rw [hSnd.crc, hFst.crc]
  case blockBytes => rw [hSnd.blockBytes, hFst.blockBytes]
  case seen => rw [hSnd.seen, hFst.seen]
  case candidateKey => rw [hSnd.candidateKey, hFst.candidateKey]
  case candidateCount => rw [hSnd.candidateCount, hFst.candidateCount]
  case solved =>
    intro index hSome
    exact hSnd.solved index (hFst.solved index hSome)

variable {decoder : AirGapDecoder}

theorem solve_eq (hIndices : part.indices = [index]) : decoder.solve part =
    { decoder with
      solved := update decoder.solved index (some part.payload)
      solvedCount := decoder.solvedCount + 1 } := by
  unfold AirGapDecoder.solve
  rw [hIndices]

theorem Blocks.solve (hBlocks : Blocks encoder decoder) (hMixes : Mixes encoder part)
  (hUnsolved : ∀ index ∈ part.indices, decoder.solved index = none)
  (hOne : part.indices.length = 1) :
  Blocks encoder (decoder.solve part) ∧ SameSession decoder (decoder.solve part) ∧
    (decoder.solve part).pending = decoder.pending ∧
    ∀ index ∈ part.indices, ((decoder.solve part).solved index).isSome = true := by
  rcases length_eq_one_iff.mp hOne with ⟨index, hIndices⟩
  have hMem : index ∈ part.indices := by
    rw [hIndices]
    exact mem_singleton.mpr rfl
  have hIdx := hMixes.lt index hMem
  have hNone := hUnsolved index hMem
  rw [solve_eq hIndices, hMixes.single hIndices]
  refine ⟨?_, ?_, rfl, ?_⟩
  · constructor
    case sound => exact hBlocks.sound.update hIdx
    case count =>
      simp only
      rw [card_update hIdx hNone, hBlocks.count]
    case mixes => exact hBlocks.mixes
  · refine ⟨rfl, rfl, rfl, rfl, rfl, rfl, rfl, rfl, ?_⟩
    intro other hSome
    simp only
    by_cases hEq : other = index
    · rw [hEq, update_self]
      rfl
    · rw [update_of_ne hEq]
      exact hSome
  · intro other hOther
    rw [hIndices, mem_singleton] at hOther
    simp only
    rw [hOther, update_self]
    rfl

-- Passes

open AirGapDecoder

structure PassHolds
  (encoder : AirGapEncoder) (before : AirGapDecoder) (parts : Nat) (pass : Pass) : Prop where
  blocks : Blocks encoder pass.decoder
  same : SameSession before pass.decoder
  pending : pass.decoder.pending = before.pending
  mixes : ∀ part ∈ pass.still, Mixes encoder part
  length : pass.still.length + (if pass.progressed then 1 else 0) ≤ parts
  settled : pass.progressed = false → pass.decoder.solved = before.solved ∧
        ∀ part ∈ pass.still, ∀ index ∈ part.indices, before.solved index = none

variable {before : AirGapDecoder} {pass : Pass}

theorem PassHolds.passPart
  {parts : Nat} (hPass : PassHolds encoder before parts pass) (hMixes : Mixes encoder part) :
  PassHolds encoder before (parts + 1) (passPart pass part) := by
  have hLen := hPass.length
  rcases reduce_mixes hPass.blocks.sound hMixes with ⟨hReduced, hUnsolved⟩
  unfold AirGapDecoder.passPart
  simp only
  split
  · rename_i hOne
    rcases hPass.blocks.solve hReduced hUnsolved hOne with ⟨hBlocks, hSame, hPending, -⟩
    constructor
    case blocks => exact hBlocks
    case same => exact hPass.same.trans hSame
    case pending => exact hPending.trans hPass.pending
    case mixes => exact hPass.mixes
    case length =>
      simp only [if_true]
      omega
    case settled =>
      intro hProgressed
      cases hProgressed
  split
  · constructor
    case blocks => exact hPass.blocks
    case same => exact hPass.same
    case pending => exact hPass.pending
    case mixes =>
      intro other hOther
      rcases mem_append.mp hOther with hStill | hLast
      · exact hPass.mixes other hStill
      · rw [mem_singleton.mp hLast]
        exact hReduced
    case length =>
      simp only [length_append, length_cons, length_nil]
      omega
    case settled =>
      intro hProgressed
      rcases hPass.settled hProgressed with ⟨hSolved, hStill⟩
      refine ⟨hSolved, ?_⟩
      intro other hOther index hIdx
      rcases mem_append.mp hOther with hOld | hLast
      · exact hStill other hOld index hIdx
      · rw [mem_singleton.mp hLast] at hIdx
        rw [← hSolved]
        exact hUnsolved index hIdx
  · constructor
    case blocks => exact hPass.blocks
    case same => exact hPass.same
    case pending => exact hPass.pending
    case mixes => exact hPass.mixes
    case length => omega
    case settled => exact hPass.settled

theorem PassHolds.foldl
  {parts : List PendingPart} (hParts : ∀ part ∈ parts, Mixes encoder part) {count : Nat}
  (hPass : PassHolds encoder before count pass) :
  PassHolds encoder before (count + parts.length) (parts.foldl AirGapDecoder.passPart pass) := by
  induction parts generalizing count pass with
  | nil => exact hPass
  | cons part parts ih =>
    have hNext := hPass.passPart (hParts part mem_cons_self)
    have hRest := ih (fun other hOther => hParts other (mem_cons_of_mem _ hOther)) hNext
    rw [length_cons, Nat.add_comm parts.length, ← Nat.add_assoc]
    exact hRest

theorem Blocks.runPass (hBlocks : Blocks encoder before) :
  PassHolds encoder before before.pending.length
    before.runPass := by
  have hStart :
      PassHolds encoder before 0 {
        decoder := before
        still := []
        stillIndices := 0
        progressed := false } := by
    constructor
    case blocks => exact hBlocks
    case same => exact SameSession.refl before
    case pending => rfl
    case mixes =>
      intro part hPart
      cases hPart
    case length => exact Nat.le_refl 0
    case settled =>
      intro _
      refine ⟨rfl, ?_⟩
      intro part hPart
      cases hPart
  have hAll := hStart.foldl hBlocks.mixes
  rw [Nat.zero_add] at hAll
  exact hAll

theorem PassHolds.afterPass {parts : Nat} (hPass : PassHolds encoder before parts pass) :
  Blocks encoder (afterPass pass) ∧ SameSession before (afterPass pass) := by
  constructor
  · exact ⟨hPass.blocks.sound, hPass.blocks.count, hPass.mixes⟩
  · have hSame := hPass.same
    exact ⟨hSame.key, hSame.total, hSame.msgLen, hSame.crc,
      hSame.blockBytes, hSame.seen, hSame.candidateKey, hSame.candidateCount, hSame.solved⟩

/- With more passes than parts the last solves nothing. -/
theorem Blocks.cascadePasses
  (hBlocks : Blocks encoder decoder) {fuel : Nat} (hFuel : decoder.pending.length < fuel) :
  Blocks encoder (decoder.cascadePasses fuel) ∧ SameSession decoder (decoder.cascadePasses fuel) ∧
    Settled (decoder.cascadePasses fuel) := by
  induction fuel generalizing decoder with
  | zero => omega
  | succ fuel ih =>
    have hPass := hBlocks.runPass
    rcases hPass.afterPass with ⟨hAfter, hSame⟩
    rw [AirGapDecoder.cascadePasses]
    cases hProgressed : decoder.runPass.progressed with
    | true =>
      have hLen := hPass.length
      rw [hProgressed, if_pos rfl] at hLen
      have hShort : (AirGapDecoder.afterPass decoder.runPass).pending.length < fuel := by
        change decoder.runPass.still.length < fuel
        omega
      rcases ih hAfter hShort with ⟨hRest, hRestSame, hSettle⟩
      rw [if_pos rfl]
      exact ⟨hRest, hSame.trans hRestSame, hSettle⟩
    | false =>
      rcases hPass.settled hProgressed with ⟨hSolved, hStill⟩
      rw [if_neg (by decide)]
      refine ⟨hAfter, hSame, ?_⟩
      intro part hPart index hIdx
      change decoder.runPass.decoder.solved index = none
      rw [hSolved]
      exact hStill part hPart index hIdx

theorem Blocks.cascade (hBlocks : Blocks encoder decoder) :
  Blocks encoder decoder.cascade ∧ SameSession decoder decoder.cascade ∧
    Settled decoder.cascade :=
  hBlocks.cascadePasses (Nat.lt_succ_self _)

end TsStack.AirGap
