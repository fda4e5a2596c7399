import TsStack.Transaction.Transaction

/-
  The scanner of raw transactions in a BEEF:
  `transaction/BeefTx.ts`.
-/

-- Scanning Raw Transactions

namespace TsStack

/- The elements of a `Set`, in order of insertion. -/
def insertionOrder (txids : List JsString) : List JsString :=
  txids.reverse.dedup.reverse

namespace BeefTx

def skipBytes (length : Nat) : ByteReader Unit := do
  let _ ← ListParser.take (.rangeError "Serialized transaction exceeds available BEEF data") length
  pure ()

/- One input of `scanRawTransaction`: its source txid. -/
def scanInput : ByteReader JsString := do
  let bytes ← ByteReader.read 32
  skipBytes 4
  let scriptLength ← readVarIntNumStrict
  skipBytes (scriptLength + 4)
  pure (toHex bytes.reverse)

/- One output of `scanRawTransaction`. -/
def scanOutput : ByteReader Unit := do
  skipBytes 8
  let scriptLength ← readVarIntNumStrict
  skipBytes scriptLength

/- The source txids of a transaction, without repetition. -/
def scanFields : ByteReader (List JsString) := do
  skipBytes 4
  let inputCount ← readVarIntNumStrict
  let inputTxids ← scanInput.times inputCount
  let outputCount ← readVarIntNumStrict
  let _ ← scanOutput.times outputCount
  skipBytes 4
  pure (insertionOrder inputTxids)

/- `scanRawTransaction`: the bytes and the source txids. -/
def scanRawTransaction :
  ByteReader (Bytes × List JsString) :=
  scanFields.consumed

def rawTxid (rawTx : Bytes) : JsString :=
  toHex (hash256 rawTx).reverse

end BeefTx

end TsStack
