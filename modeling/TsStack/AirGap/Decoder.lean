import TsStack.AirGap.Frames
import Mathlib.Data.List.Dedup

/-
  The decoder of an air-gap stream.

  Solved blocks are a partial function of the index, as the
  source's array grows with holes.
-/

-- States

namespace TsStack.AirGap

/- What one scanned text has changed. -/
structure AirGapProgress where
  ok : Bool
  done : Bool
  have_ : Nat
  total : Nat
deriving DecidableEq

/- A part that mixes several blocks that are not solved. -/
structure PendingPart where
  indices : List Nat
  payload : Bytes
deriving DecidableEq

structure AirGapDecoder where
  key : Option SessionKey
  total : Nat
  msgLen : Nat
  crc : Nat
  blockBytes : Nat
  seen : List Nat
  solved : Nat → Option Bytes
  solvedCount : Nat
  pending : List PendingPart
  pendingIndices : Nat
  candidateKey : Option SessionKey
  candidateCount : Nat

namespace AirGapDecoder

def startSession (key : Option SessionKey) (total msgLen crc : Nat) : AirGapDecoder := {
  key, total, msgLen, crc
  blockBytes := 0
  seen := []
  solved := fun _ => none
  solvedCount := 0
  pending := []
  pendingIndices := 0
  candidateKey := none
  candidateCount := 0 }

/- A decoder that waits for a fresh message. -/
def reset : AirGapDecoder :=
  startSession none 0 0 0

variable (decoder : AirGapDecoder)

def isDone : Bool :=
  decide (0 < decoder.total) && decide (decoder.solvedCount = decoder.total)

def progress (ok : Bool) : AirGapProgress := {
  ok
  done := decoder.isDone
  have_ := decoder.solvedCount
  total := decoder.total }

def accepted :
  AirGapProgress × AirGapDecoder :=
  (decoder.progress true, decoder)

def rejected :
  AirGapProgress × AirGapDecoder :=
  (decoder.progress false, decoder)

end AirGapDecoder

-- Peeling

def reduceFrom (solved : Nat → Option Bytes) :
  List Nat → Bytes → PendingPart
| [], payload => { indices := [], payload }
| index :: indices, payload =>
  match solved index with
  | some known => reduceFrom solved indices (xorInto payload known)
  | none =>
    let rest := reduceFrom solved indices payload
    { rest with indices := index :: rest.indices }

def reduce (solved : Nat → Option Bytes) (part : PendingPart) : PendingPart :=
  reduceFrom solved part.indices part.payload

namespace AirGapDecoder

/- Record a part as its one remaining block. -/
def solve (part : PendingPart) (decoder : AirGapDecoder) : AirGapDecoder :=
  match part.indices with
  | index :: _ =>
    { decoder with
      solved := Function.update decoder.solved index (some part.payload)
      solvedCount := decoder.solvedCount + 1 }
  | [] => decoder

structure Pass where
  decoder : AirGapDecoder
  still : List PendingPart
  stillIndices : Nat
  progressed : Bool

def passPart (pass : Pass) (part : PendingPart) : Pass :=
  let part := reduce pass.decoder.solved part
  if part.indices.length = 1 then
    { pass with
      decoder := pass.decoder.solve part
      progressed := true }
  else if 1 < part.indices.length then
    { pass with
      still := pass.still ++ [part]
      stillIndices := pass.stillIndices + part.indices.length }
  else pass

def runPass (decoder : AirGapDecoder) : Pass :=
  decoder.pending.foldl passPart {
    decoder
    still := []
    stillIndices := 0
    progressed := false }

def afterPass (pass : Pass) : AirGapDecoder :=
  { pass.decoder with
    pending := pass.still
    pendingIndices := pass.stillIndices }

/- Passes until one solves nothing, so many at most. -/
def cascadePasses : Nat → AirGapDecoder → AirGapDecoder
| 0, decoder => decoder
| fuel + 1, decoder =>
  let pass := decoder.runPass
  if pass.progressed then cascadePasses fuel (afterPass pass)
  else afterPass pass

/- Every pass that solves a part leaves one part less. -/
def cascade (decoder : AirGapDecoder) : AirGapDecoder :=
  decoder.cascadePasses (decoder.pending.length + 1)

/- Part numbers are remembered up to a count. -/
def remember (seq : Nat) (decoder : AirGapDecoder) : AirGapDecoder :=
  if decoder.seen.length < MAX_TRACKED_SEQS then { decoder with seen := decoder.seen.insert seq }
  else decoder

/- Keep a mix for later. -/
def pend (part : PendingPart) (decoder : AirGapDecoder) : AirGapDecoder :=
  { decoder with
    pending := decoder.pending ++ [part]
    pendingIndices := decoder.pendingIndices + part.indices.length }

def partBlocks (seq total : Nat) : List Nat :=
  if seq < total then [seq]
  else blocksForPart seq total MAX_PENDING_INDICES

/- A new part of the session, within the budgets. -/
def ingest (part : ParsedPart) (decoder : AirGapDecoder) :
  AirGapProgress × AirGapDecoder :=
  let indices := (partBlocks part.seq decoder.total).dedup
  if indices.length = 0 then decoder.rejected
  else
    let candidate := reduce decoder.solved { indices, payload := part.payload }
    if 1 < candidate.indices.length then
      if MAX_PENDING_PARTS ≤ decoder.pending.length ∨
          MAX_PENDING_INDICES < decoder.pendingIndices + candidate.indices.length then
        decoder.rejected
      else ((decoder.pend candidate).remember part.seq).accepted
    else if candidate.indices.length = 1 then
      ((decoder.solve candidate).cascade.remember part.seq).accepted
    else (decoder.remember part.seq).accepted

-- Scanned Texts

def enterSession (part : ParsedPart) (decoder : AirGapDecoder) : Bool × AirGapDecoder :=
  let started := startSession (some part.key) part.total part.msgLen part.crc
  if decoder.key = none then (true, started)
  else if decoder.key = some part.key then
    (true,
      { decoder with
        candidateKey := none
        candidateCount := 0 })
  else
    let candidateCount :=
      if decoder.candidateKey = some part.key then decoder.candidateCount + 1
      else 1
    if candidateCount < SESSION_SWITCH_PARTS then
      (false,
        { decoder with
          candidateKey := some part.key
          candidateCount })
    else (true, started)

def acceptPart (part : ParsedPart) (decoder : AirGapDecoder) :
  AirGapProgress × AirGapDecoder :=
  if decoder.isDone then decoder.accepted
  else if decoder.blockBytes ≠ 0 ∧ part.payload.length ≠ decoder.blockBytes then decoder.rejected
  else
    let decoder := { decoder with blockBytes := part.payload.length }
    if part.seq ∈ decoder.seen then decoder.accepted
    else decoder.ingest part

def accept (text : PartText) (decoder : AirGapDecoder) :
  AirGapProgress × AirGapDecoder :=
  match parse text with
  | none => decoder.rejected
  | some part =>
    let entered := decoder.enterSession part
    if entered.1 then entered.2.acceptPart part
    else entered.2.rejected

def receive (texts : List PartText) : AirGapDecoder :=
  texts.foldl (fun decoder text => (decoder.accept text).2) reset

/-
  The message, if all blocks are there and the checksum is
  right.  A block that is counted but missing is an error.
-/
def message (decoder : AirGapDecoder) :
  Except String (Option Bytes × AirGapDecoder) :=
  if decoder.total = 0 ∨ decoder.solvedCount ≠ decoder.total ∨ decoder.blockBytes = 0 then
    return (none, decoder)
  else
    match (List.range decoder.total).mapM decoder.solved with
    | none => throw "TypeError"
    | some blocks =>
      let trimmed := blocks.flatten.take decoder.msgLen
      if crc32 trimmed = decoder.crc then return (some trimmed, decoder)
      else return (none, reset)

end AirGapDecoder

end TsStack.AirGap
