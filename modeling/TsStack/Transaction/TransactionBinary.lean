import TsStack.Script.Script
import TsStack.Transaction.BeefTx

/-
  The three readers of serialized transactions:
  `Transaction.fromBinary`, `parseScriptOffsets` and the
  scanner `scanRawTransaction`, against the writer
  `#buildSerializedBytes`.

  `WireTransaction` is the abstract description of the byte
  strings in the format: each is accepted, and nothing else
  is.  `Reader` differs from `ReaderUint8Array`, which is
  modeled, in the text of its range errors only.
-/

-- Reading a Transaction

open List

namespace TsStack

open ListParser ByteReader

namespace Transaction

def trailingDataError : JsError :=
  .error "Serialized transaction contains trailing data"

def readAll {α : Type} (reader : ByteReader α) (bin : Bytes) : Except JsError α :=
  match reader bin with
  | .error error => .error error
  | .ok (value, rest) =>
      if rest = [] then .ok value
      else .error trailingDataError

def readScript (scriptLength : Nat) : ByteReader Bytes := do
  let scriptBin ← ByteReader.read scriptLength
  ListParser.ofExcept (Script.fromBinaryView scriptBin).toBinary

/- One input of `#fromReaderInternal`. -/
def readInput : ByteReader TransactionInput := do
  let bytes ← ByteReader.read 32
  let sourceOutputIndex ← readUInt32LE
  let scriptLength ← readVarIntNumStrict
  let unlockingScript ← readScript scriptLength
  let sequence ← readUInt32LE
  pure
    { sourceTXID := some (toHex bytes.reverse)
      sourceOutputIndex := sourceOutputIndex
      unlockingScript := some unlockingScript
      sequence := some sequence }

/- `readUInt64LEBn().toNumber()`. -/
def readSatoshis : ByteReader Nat := do
  let value ← readUInt64LEBn
  if value > maxSafeInteger then
    ListParser.fail (.error "Number can only safely store up to 53 bits")
  else pure value

/- One output of `#fromReaderInternal`. -/
def readOutput : ByteReader TransactionOutput := do
  let satoshis ← readSatoshis
  let scriptLength ← readVarIntNumStrict
  let lockingScript ← readScript scriptLength
  pure
    { satoshis := some satoshis
      lockingScript := lockingScript }

/- `#fromReaderInternal`. -/
def fromReader : ByteReader Transaction := do
  let version ← readUInt32LE
  let inputsLength ← readVarIntNumStrict
  let inputs ← readInput.times inputsLength
  let outputsLength ← readVarIntNumStrict
  let outputs ← readOutput.times outputsLength
  let lockTime ← readUInt32LE
  pure
    { version := version
      inputs := inputs
      outputs := outputs
      lockTime := lockTime }

def fromBinary (bin : Bytes) : Except JsError Transaction :=
  readAll fromReader bin

end Transaction

-- Script Offsets

/- An element of `inputs` of `parseScriptOffsets`. -/
structure InputScriptOffset where
  vin : Nat
  offset : Nat
  length : Nat
deriving DecidableEq, Repr

/- An element of `outputs` of `parseScriptOffsets`. -/
structure OutputScriptOffset where
  vout : Nat
  offset : Nat
  length : Nat
deriving DecidableEq, Repr

/- The result of `parseScriptOffsets`. -/
structure ScriptOffsets where
  inputs : List InputScriptOffset
  outputs : List OutputScriptOffset
deriving DecidableEq, Repr

namespace Transaction

/- One input of `parseScriptOffsets`. -/
def readInputScriptOffset (bin : Bytes) (vin : Nat) : ByteReader InputScriptOffset := do
  let _ ← ByteReader.read 36
  let scriptLength ← readVarIntNumStrict
  let offset ← ListParser.position bin
  let _ ← ByteReader.read (scriptLength + 4)
  pure { vin := vin, offset := offset, length := scriptLength }

/- One output of `parseScriptOffsets`. -/
def readOutputScriptOffset (bin : Bytes) (vout : Nat) : ByteReader OutputScriptOffset := do
  let _ ← ByteReader.read 8
  let scriptLength ← readVarIntNumStrict
  let offset ← ListParser.position bin
  let _ ← ByteReader.read scriptLength
  pure
    { vout := vout
      offset := offset
      length := scriptLength }

/- The reads of `parseScriptOffsets`. -/
def readScriptOffsets (bin : Bytes) : ByteReader ScriptOffsets := do
  let _ ← ByteReader.read 4
  let inputsLength ← readVarIntNumStrict
  let inputs ← ListParser.timesFrom (readInputScriptOffset bin) 0 inputsLength
  let outputsLength ← readVarIntNumStrict
  let outputs ← ListParser.timesFrom (readOutputScriptOffset bin) 0 outputsLength
  let _ ← ByteReader.read 4
  pure { inputs := inputs, outputs := outputs }

def parseScriptOffsets (bin : Bytes) : Except JsError ScriptOffsets :=
  readAll (readScriptOffsets bin) bin

end Transaction

-- The Format

open LittleEndian

structure WireInput where
  source : Bytes
  sourceOutputIndex : Nat
  script : Bytes
  sequence : Nat
  length_source : source.length = 32
  sourceOutputIndex_lt : sourceOutputIndex < 256 ^ 4
  length_script_le : script.length ≤ maxSafeInteger
  sequence_lt : sequence < 256 ^ 4

namespace WireInput

def scriptPrefix (input : WireInput) : Bytes :=
  input.source ++ (leBytes 4 input.sourceOutputIndex ++ varIntNum input.script.length)

def bytes (input : WireInput) : Bytes :=
  input.scriptPrefix ++ (input.script ++ leBytes 4 input.sequence)

/- The source's transaction id. -/
def sourceTXID (input : WireInput) : JsString :=
  toHex input.source.reverse

def input (input : WireInput) : TransactionInput where
  sourceTXID := some input.sourceTXID
  sourceOutputIndex := input.sourceOutputIndex
  unlockingScript := some input.script
  sequence := some input.sequence

end WireInput

structure WireOutput where
  satoshis : Nat
  script : Bytes
  satoshis_le : satoshis ≤ maxSafeInteger
  length_script_le : script.length ≤ maxSafeInteger

namespace WireOutput

def scriptPrefix (output : WireOutput) : Bytes :=
  leBytes 8 output.satoshis ++ varIntNum output.script.length

def bytes (output : WireOutput) : Bytes :=
  output.scriptPrefix ++ output.script

def output (output : WireOutput) : TransactionOutput where
  satoshis := some output.satoshis
  lockingScript := output.script

end WireOutput

structure WireTransaction where
  version : Nat
  inputs : List WireInput
  outputs : List WireOutput
  lockTime : Nat
  version_lt : version < 256 ^ 4
  length_inputs_le : inputs.length ≤ maxSafeInteger
  length_outputs_le : outputs.length ≤ maxSafeInteger
  lockTime_lt : lockTime < 256 ^ 4

namespace WireTransaction

variable (wire : WireTransaction)

def inputsPrefix : Bytes :=
  leBytes 4 wire.version ++ varIntNum wire.inputs.length

def outputsPrefix : Bytes :=
  wire.inputsPrefix ++ (wire.inputs.flatMap (·.bytes) ++ varIntNum wire.outputs.length)

def bytes (wire : WireTransaction) : Bytes :=
  wire.outputsPrefix ++ (wire.outputs.flatMap (·.bytes) ++ leBytes 4 wire.lockTime)

/- The fields the bytes are parsed to. -/
def transaction : Transaction where
  version := wire.version
  inputs := wire.inputs.map (·.input)
  outputs := wire.outputs.map (·.output)
  lockTime := wire.lockTime

def beforeInputScript (index : Nat) (input : WireInput) : Bytes :=
  wire.inputsPrefix ++ (wire.inputs.take index).flatMap (·.bytes) ++ input.scriptPrefix

def beforeOutputScript (index : Nat) (output : WireOutput) : Bytes :=
  wire.outputsPrefix ++ (wire.outputs.take index).flatMap (·.bytes) ++ output.scriptPrefix

def scriptOffsets :
  ScriptOffsets where
  inputs :=
    wire.inputs.mapIdx fun vin input =>
      { vin := vin
        offset := (wire.beforeInputScript vin input).length
        length := input.script.length }
  outputs :=
    wire.outputs.mapIdx fun vout output =>
      { vout := vout
        offset := (wire.beforeOutputScript vout output).length
        length := output.script.length }

end WireTransaction

-- Accepted Byte Strings

namespace Transaction

/- A script over a view serializes to the view. -/
theorem readScript_eq (scriptLength : Nat) : readScript scriptLength = read scriptLength := by
  change (read scriptLength >>= pure) = read scriptLength
  exact bind_pure _

theorem parses_readScript (scriptLength : Nat) :
  (readScript scriptLength).Parses (fun script tokens =>
      script = tokens ∧ tokens.length = scriptLength) := by
  rw [readScript_eq]
  exact parses_take readError scriptLength

theorem parses_readInput : readInput.Parses fun input tokens =>
    ∃ wire : WireInput, input = wire.input ∧ tokens = wire.bytes := by
  apply (parses_take readError 32).bind
  rintro source _ ⟨rfl, hSrc⟩
  apply (parses_readUInt 4).bind
  rintro sourceOutputIndex _ ⟨hIdx, rfl⟩
  apply parses_readVarIntNumStrict.bind
  rintro _ _ ⟨hScript, rfl⟩
  apply (parses_readScript _).bind
  rintro script _ ⟨rfl, rfl⟩
  apply (parses_readUInt 4).bind
  rintro sequence _ ⟨hSeq, rfl⟩
  apply parses_pure
  let wire : WireInput :=
    { source := source
      sourceOutputIndex := sourceOutputIndex
      script := script
      sequence := sequence
      length_source := hSrc
      sourceOutputIndex_lt := hIdx
      length_script_le := hScript
      sequence_lt := hSeq }
  exact ⟨wire, rfl, by simp [wire, WireInput.bytes, WireInput.scriptPrefix]⟩

theorem parses_readSatoshis : readSatoshis.Parses fun satoshis tokens =>
    satoshis ≤ maxSafeInteger ∧ tokens = leBytes 8 satoshis := by
  apply (parses_readUInt 8).bind
  rintro satoshis _ ⟨_, rfl⟩
  apply ListParser.Parses.ite
  · intro _
    exact parses_fail _ _
  · intro hSafe
    apply parses_pure
    exact ⟨Nat.le_of_not_lt hSafe, append_nil _⟩

theorem parses_readOutput : readOutput.Parses fun output tokens =>
    ∃ wire : WireOutput, output = wire.output ∧ tokens = wire.bytes := by
  apply parses_readSatoshis.bind
  rintro satoshis _ ⟨hSatoshis, rfl⟩
  apply parses_readVarIntNumStrict.bind
  rintro _ _ ⟨hScript, rfl⟩
  apply (parses_readScript _).bind
  rintro script _ ⟨rfl, rfl⟩
  apply parses_pure
  let wire : WireOutput :=
    { satoshis := satoshis
      script := script
      satoshis_le := hSatoshis
      length_script_le := hScript }
  exact ⟨wire, rfl, by simp [wire, WireOutput.bytes, WireOutput.scriptPrefix]⟩

theorem parses_fromReader : fromReader.Parses fun transaction tokens =>
    ∃ wire : WireTransaction, transaction = wire.transaction ∧ tokens = wire.bytes := by
  apply (parses_readUInt 4).bind
  rintro version _ ⟨hVer, rfl⟩
  apply parses_readVarIntNumStrict.bind
  rintro _ _ ⟨hInputs, rfl⟩
  apply (parses_readInput.times _).bind
  rintro _ _ ⟨inputs, rfl, rfl, rfl⟩
  apply parses_readVarIntNumStrict.bind
  rintro _ _ ⟨hOuts, rfl⟩
  apply (parses_readOutput.times _).bind
  rintro _ _ ⟨outputs, rfl, rfl, rfl⟩
  apply (parses_readUInt 4).bind
  rintro lockTime _ ⟨hLockTime, rfl⟩
  apply parses_pure
  let wire : WireTransaction :=
    { version := version
      inputs := inputs
      outputs := outputs
      lockTime := lockTime
      version_lt := hVer
      length_inputs_le := hInputs
      length_outputs_le := hOuts
      lockTime_lt := hLockTime }
  exact ⟨wire, rfl, by
    simp [wire, WireTransaction.bytes, WireTransaction.outputsPrefix,
      WireTransaction.inputsPrefix]⟩

-- Reading the Format

theorem reads_readScript (script : Bytes) : (readScript script.length).Reads script script := by
  rw [readScript_eq]
  exact reads_read script

theorem reads_readInput (wire : WireInput) : readInput.Reads wire.input wire.bytes := by
  have hSrc := reads_read wire.source
  rw [wire.length_source] at hSrc
  rw [WireInput.bytes, WireInput.scriptPrefix]
  simp only [append_assoc]
  apply hSrc.bind
  apply (reads_readUInt 4 wire.sourceOutputIndex_lt).bind
  apply (reads_readVarIntNumStrict wire.length_script_le).bind
  apply (reads_readScript wire.script).bind
  apply (reads_readUInt 4 wire.sequence_lt).bind_nil
  exact reads_pure _

theorem reads_readSatoshis {satoshis : Nat} (hSafe : satoshis ≤ maxSafeInteger) :
  readSatoshis.Reads satoshis (LittleEndian.leBytes 8 satoshis) := by
  have hBound : satoshis < 256 ^ 8 := by
    unfold maxSafeInteger at hSafe
    omega
  apply (reads_readUInt 8 hBound).bind_nil
  rw [if_neg (Nat.not_lt.mpr hSafe)]
  exact reads_pure satoshis

theorem reads_readOutput (wire : WireOutput) : readOutput.Reads wire.output wire.bytes := by
  rw [WireOutput.bytes, WireOutput.scriptPrefix, append_assoc]
  apply (reads_readSatoshis wire.satoshis_le).bind
  apply (reads_readVarIntNumStrict wire.length_script_le).bind
  apply (reads_readScript wire.script).bind_nil
  exact reads_pure _

theorem reads_fromReader (wire : WireTransaction) :
  fromReader.Reads wire.transaction wire.bytes := by
  rw [WireTransaction.bytes, WireTransaction.outputsPrefix, WireTransaction.inputsPrefix]
  simp only [append_assoc]
  apply (reads_readUInt 4 wire.version_lt).bind
  apply (reads_readVarIntNumStrict wire.length_inputs_le).bind
  apply (ListParser.Reads.times wire.inputs fun input _ => reads_readInput input).bind
  apply (reads_readVarIntNumStrict wire.length_outputs_le).bind
  apply (ListParser.Reads.times wire.outputs fun output _ => reads_readOutput output).bind
  apply (reads_readUInt 4 wire.lockTime_lt).bind_nil
  exact reads_pure _

theorem readAll_of_readsAt {α : Type} {reader : ByteReader α} {value : α} {bin : Bytes}
  (hReads : reader.ReadsAt bin [] value bin) : readAll reader bin = .ok value := by
  have hRun := hReads [] (by simp)
  rw [append_nil] at hRun
  unfold readAll
  rw [hRun]
  exact if_pos rfl

theorem reader_of_readAll {α : Type} {reader : ByteReader α} {value : α} {bin : Bytes}
  (hRead : readAll reader bin = .ok value) : reader bin = .ok (value, []) := by
  unfold readAll at hRead
  cases hRun : reader bin with
  | error error => simp [hRun] at hRead
  | ok result =>
      rcases result with ⟨parsed, rest⟩
      simp only [hRun] at hRead
      split_ifs at hRead with hEnd
      cases hRead
      rw [hEnd]

/- Exactly the serializations are accepted. -/
theorem fromBinary_eq_ok_iff (bin : Bytes) (transaction : Transaction) :
  fromBinary bin = .ok transaction ↔ ∃ wire : WireTransaction,
      transaction = wire.transaction ∧ bin = wire.bytes := by
  constructor
  · intro hParse
    rcases parses_fromReader _ _ _ (reader_of_readAll hParse) with
      ⟨tokens, hInput, wire, hFields, hBytes⟩
    rw [append_nil] at hInput
    exact ⟨wire, hFields, hInput.trans hBytes⟩
  · rintro ⟨wire, rfl, rfl⟩
    exact readAll_of_readsAt ((reads_fromReader wire).at _ _)

end Transaction

namespace WireTransaction

variable (hash : TransactionRef → Except JsError Bytes)

/- The written form of the parsed fields is the input. -/
theorem write_input (wire : WireInput) : wire.input.write hash = .ok wire.bytes := by
  have hLen : wire.source.reverse.length = 32 := by
    rw [length_reverse]
    exact wire.length_source
  have hSrc : wire.input.sourceBytes hash = .ok wire.source := by
    change (requireTXID wire.sourceTXID >>= _) = _
    rw [WireInput.sourceTXID, requireTXID_toHex hLen, ok_bind, reverse_reverse]
    rfl
  have hIdx : requireUInt32 wire.input.sourceOutputIndex "sourceOutputIndex" =
        .ok wire.sourceOutputIndex := by
    have hBound := wire.sourceOutputIndex_lt
    exact if_pos (by
      change wire.sourceOutputIndex ≤ _
      omega)
  have hSeq :
      requireUInt32 (wire.input.sequence.getD 0xffffffff) "sequence" = .ok wire.sequence := by
    have hBound := wire.sequence_lt
    exact if_pos (by
      change wire.sequence ≤ _
      omega)
  unfold TransactionInput.write
  rw [hSrc, ok_bind, hIdx, ok_bind, hSeq]
  simp only [WireInput.input, WireInput.bytes, WireInput.scriptPrefix, append_assoc, ok_bind]
  rfl

theorem mapM_write_inputs (inputs : List WireInput) :
  (inputs.map (·.input)).mapM (·.write hash) = .ok (inputs.map (·.bytes)) := by
  induction inputs with
  | nil => rfl
  | cons input inputs ih =>
      rw [map_cons, mapM_cons, write_input, ok_bind, ih]
      rfl

/- Rebuilding from the fields gives the bytes parsed. -/
theorem write_transaction (wire : WireTransaction) :
  wire.transaction.write hash = .ok wire.bytes := by
  have hOuts : wire.transaction.outputs.map (·.write) = wire.outputs.map (·.bytes) := by
    rw [transaction, List.map_map]
    rfl
  unfold Transaction.write
  rw [hOuts]
  change (wire.inputs.map (·.input)).mapM (·.write hash) >>= _ = _
  rw [mapM_write_inputs, ok_bind]
  simp [transaction, bytes, outputsPrefix, inputsPrefix, flatMap_def]

end WireTransaction

-- Scanning the Format

namespace WireTransaction

/- A read of known bytes whose value is not used. -/
theorem reads_skip (tokens : Bytes) {length : Nat} (hLen : tokens.length = length) :
  (BeefTx.skipBytes length).Reads () tokens := by
  subst hLen
  apply (reads_take _ tokens).bind_nil
  exact reads_pure ()

theorem reads_scanInput (wire : WireInput) : BeefTx.scanInput.Reads wire.sourceTXID wire.bytes := by
  have hSrc := reads_read wire.source
  rw [wire.length_source] at hSrc
  rw [WireInput.bytes, WireInput.scriptPrefix]
  simp only [append_assoc]
  apply hSrc.bind
  apply (reads_skip (leBytes 4 wire.sourceOutputIndex) (length_leBytes _ _)).bind
  apply (reads_readVarIntNumStrict wire.length_script_le).bind
  apply (reads_skip (wire.script ++ leBytes 4 wire.sequence) (by simp)).bind_nil
  exact reads_pure _

theorem reads_scanOutput (wire : WireOutput) : BeefTx.scanOutput.Reads () wire.bytes := by
  rw [WireOutput.bytes, WireOutput.scriptPrefix, append_assoc]
  apply (reads_skip (leBytes 8 wire.satoshis) (length_leBytes _ _)).bind
  apply (reads_readVarIntNumStrict wire.length_script_le).bind
  exact reads_skip wire.script rfl

/- The scanner consumes a serialization, whatever follows. -/
theorem reads_scanRawTransaction (wire : WireTransaction) :
  BeefTx.scanRawTransaction.Reads (wire.bytes, insertionOrder (wire.inputs.map (·.sourceTXID)))
    wire.bytes := by
  apply ListParser.Reads.consumed
  rw [WireTransaction.bytes, WireTransaction.outputsPrefix, WireTransaction.inputsPrefix]
  simp only [append_assoc]
  apply (reads_skip (leBytes 4 wire.version) (length_leBytes _ _)).bind
  apply (reads_readVarIntNumStrict wire.length_inputs_le).bind
  apply (ListParser.Reads.times wire.inputs fun input _ => reads_scanInput input).bind
  apply (reads_readVarIntNumStrict wire.length_outputs_le).bind
  apply (ListParser.Reads.times wire.outputs fun output _ => reads_scanOutput output).bind
  apply (reads_skip (leBytes 4 wire.lockTime) (length_leBytes _ _)).bind_nil
  exact reads_pure _

end WireTransaction

-- Script Offsets of the Format

namespace WireTransaction

theorem readsAt_read (whole before tokens : Bytes) {length : Nat} (hLen : tokens.length = length) :
  (read length).ReadsAt whole before tokens tokens := by
  subst hLen
  exact (reads_read tokens).at whole before

theorem readsAt_readInputScriptOffset (whole before : Bytes) (vin : Nat) (wire : WireInput) :
  (Transaction.readInputScriptOffset whole vin).ReadsAt whole before
    { vin := vin
      offset := (before ++ wire.scriptPrefix).length
      length := wire.script.length }
    wire.bytes := by
  have hOutpoint : (wire.source ++ leBytes 4 wire.sourceOutputIndex).length = 36 := by
    rw [length_append, wire.length_source, length_leBytes]
  have hBytes : wire.bytes = (wire.source ++ leBytes 4 wire.sourceOutputIndex) ++
          (varIntNum wire.script.length ++ (wire.script ++ leBytes 4 wire.sequence)) := by
    simp [WireInput.bytes, WireInput.scriptPrefix]
  rw [hBytes]
  apply (readsAt_read _ _ _ hOutpoint).bind
  apply ((reads_readVarIntNumStrict wire.length_script_le).at _ _).bind
  apply (readsAt_position _ _).bind
  apply (readsAt_read _ _ _ (by simp)).bind_nil
  simp only [WireInput.scriptPrefix, append_assoc, append_nil]
  exact (reads_pure _).at _ _

theorem readsAt_readOutputScriptOffset (whole before : Bytes) (vout : Nat) (wire : WireOutput) :
  (Transaction.readOutputScriptOffset whole vout).ReadsAt whole before
    { vout := vout
      offset := (before ++ wire.scriptPrefix).length
      length := wire.script.length }
    wire.bytes := by
  rw [WireOutput.bytes, WireOutput.scriptPrefix, append_assoc]
  apply (readsAt_read _ _ (leBytes 8 wire.satoshis) (length_leBytes _ _)).bind
  apply ((reads_readVarIntNumStrict wire.length_script_le).at _ _).bind
  apply (readsAt_position _ _).bind
  apply (readsAt_read _ _ wire.script rfl).bind_nil
  simp only [append_assoc, append_nil]
  exact (reads_pure _).at _ _

theorem readsAt_readScriptOffsets (wire : WireTransaction) :
  (Transaction.readScriptOffsets wire.bytes).ReadsAt
    wire.bytes [] wire.scriptOffsets wire.bytes := by
  have hBytes : wire.bytes = leBytes 4 wire.version ++ (varIntNum wire.inputs.length ++
            (wire.inputs.flatMap (·.bytes) ++ (varIntNum wire.outputs.length ++
              (wire.outputs.flatMap (·.bytes) ++ leBytes 4 wire.lockTime)))) := by
    simp [bytes, outputsPrefix, inputsPrefix]
  suffices hReads :
      ∀ whole, (Transaction.readScriptOffsets whole).ReadsAt whole [] wire.scriptOffsets
        (leBytes 4 wire.version ++ (varIntNum wire.inputs.length ++
          (wire.inputs.flatMap (·.bytes) ++ (varIntNum wire.outputs.length ++
            (wire.outputs.flatMap (·.bytes) ++ leBytes 4 wire.lockTime))))) by
    have hWhole := hReads wire.bytes
    rwa [← hBytes] at hWhole
  intro whole
  apply (readsAt_read _ _ (leBytes 4 wire.version) (length_leBytes _ _)).bind
  apply ((reads_readVarIntNumStrict wire.length_inputs_le).at _ _).bind
  apply (ListParser.ReadsAt.timesFrom (fun vin before =>
      readsAt_readInputScriptOffset whole before vin)
    wire.inputs 0 _).bind
  apply ((reads_readVarIntNumStrict wire.length_outputs_le).at _ _).bind
  apply (ListParser.ReadsAt.timesFrom (fun vout before =>
      readsAt_readOutputScriptOffset whole before vout)
    wire.outputs 0 _).bind
  apply (readsAt_read _ _ (leBytes 4 wire.lockTime) (length_leBytes _ _)).bind_nil
  simp only [scriptOffsets, beforeInputScript, beforeOutputScript, outputsPrefix, inputsPrefix,
    nil_append, append_assoc, Nat.zero_add]
  exact (reads_pure _).at _ _

theorem parseScriptOffsets_bytes (wire : WireTransaction) :
  Transaction.parseScriptOffsets wire.bytes = .ok wire.scriptOffsets :=
  Transaction.readAll_of_readsAt wire.readsAt_readScriptOffsets

end WireTransaction

-- Agreement of the Readers and the Writer

namespace Transaction

def beforeInputScript
  (hash : TransactionRef → Except JsError Bytes) (transaction : Transaction) (vin : Nat)
  (input : TransactionInput) : Except JsError Bytes := do
  let inputs ← (transaction.inputs.take vin).mapM (·.write hash)
  let source ← input.sourceBytes hash
  return leBytes 4 transaction.version ++ varIntNum transaction.inputs.length ++
      inputs.flatten ++ source ++ leBytes 4 input.sourceOutputIndex ++
          varIntNum (input.unlockingScript.getD []).length

def beforeOutputScript
  (hash : TransactionRef → Except JsError Bytes) (transaction : Transaction) (vout : Nat)
  (output : TransactionOutput) :
  Except JsError Bytes := do
  let inputs ← transaction.inputs.mapM (·.write hash)
  return leBytes 4 transaction.version ++ varIntNum transaction.inputs.length ++
      inputs.flatten ++ varIntNum transaction.outputs.length ++
          ((transaction.outputs.take vout).map (·.write)).flatten ++
            leBytes 8 (output.satoshis.getD 0) ++ varIntNum output.lockingScript.length

/- The offsets are the slices of `bin` that the writer fills with the scripts. -/
structure LocatesScripts
  (hash : TransactionRef → Except JsError Bytes) (transaction : Transaction) (bin : Bytes)
  (offsets : ScriptOffsets) : Prop where
  length_inputs : offsets.inputs.length = transaction.inputs.length
  length_outputs : offsets.outputs.length = transaction.outputs.length
  input : ∀ vin input, transaction.inputs[vin]? = some input → ∃ before script after,
          transaction.beforeInputScript hash vin input = .ok before ∧
            input.unlockingScript = some script ∧ bin = before ++ script ++ after ∧
                offsets.inputs[vin]? = some
                    { vin := vin
                      offset := before.length
                      length := script.length }
  output : ∀ vout output, transaction.outputs[vout]? = some output → ∃ before after,
          transaction.beforeOutputScript hash vout output = .ok before ∧
            bin = before ++ output.lockingScript ++ after ∧ offsets.outputs[vout]? = some
                  { vout := vout
                    offset := before.length
                    length := output.lockingScript.length }

end Transaction

namespace WireTransaction

theorem flatMap_split
  {α : Type} {xs : List α} {i : Nat} {x : α} (hAt : xs[i]? = some x) (f : α → Bytes) :
  xs.flatMap f = (xs.take i).flatMap f ++ (f x ++ (xs.drop (i + 1)).flatMap f) := by
  have hLt : i < xs.length := by
    rcases List.getElem?_eq_some_iff.mp hAt with ⟨h, _⟩
    exact h
  have hDrop : xs.drop i = x :: xs.drop (i + 1) := by
    rw [drop_eq_getElem_cons hLt]
    rw [getElem?_eq_getElem hLt] at hAt
    rw [Option.some.inj hAt]
  calc
    xs.flatMap f = (xs.take i ++ xs.drop i).flatMap f := by rw [take_append_drop]
    _ = _ := by rw [flatMap_append, hDrop, flatMap_cons]

variable (hash : TransactionRef → Except JsError Bytes) (wire : WireTransaction)

theorem beforeInputScript_transaction (vin : Nat) (input : WireInput) :
  wire.transaction.beforeInputScript hash vin input.input =
    .ok (wire.beforeInputScript vin input) := by
  have hSrc : input.input.sourceBytes hash = .ok input.source := by
    change (requireTXID input.sourceTXID >>= _) = _
    rw [WireInput.sourceTXID, requireTXID_toHex (by simp [input.length_source]),
      ok_bind, reverse_reverse]
    rfl
  unfold Transaction.beforeInputScript
  rw [transaction, ← map_take, mapM_write_inputs, ok_bind, hSrc, ok_bind]
  simp [beforeInputScript, inputsPrefix, WireInput.scriptPrefix, WireInput.input, flatMap_def]

theorem beforeOutputScript_transaction (vout : Nat) (output : WireOutput) :
  wire.transaction.beforeOutputScript hash vout output.output =
    .ok (wire.beforeOutputScript vout output) := by
  have hOuts : (wire.transaction.outputs.take vout).map (·.write) =
        (wire.outputs.take vout).map (·.bytes) := by
    rw [transaction, ← map_take, List.map_map]
    rfl
  unfold Transaction.beforeOutputScript
  rw [hOuts, transaction, mapM_write_inputs, ok_bind]
  simp [beforeOutputScript, outputsPrefix, inputsPrefix, WireOutput.scriptPrefix, WireOutput.output,
    flatMap_def]

theorem locatesScripts : wire.transaction.LocatesScripts hash wire.bytes wire.scriptOffsets where
  length_inputs := by simp [scriptOffsets, transaction]
  length_outputs := by simp [scriptOffsets, transaction]
  input := by
    intro vin input hInput
    rw [transaction, getElem?_map, Option.map_eq_some_iff] at hInput
    rcases hInput with ⟨source, hAt, rfl⟩
    have hSplit := flatMap_split hAt (fun input => input.bytes)
    refine ⟨_, source.script, leBytes 4 source.sequence ++
        ((wire.inputs.drop (vin + 1)).flatMap (·.bytes) ++
          (varIntNum wire.outputs.length ++ (wire.outputs.flatMap (·.bytes) ++
            leBytes 4 wire.lockTime))),
      wire.beforeInputScript_transaction hash vin source,
      rfl, ?_, ?_⟩
    · rw [bytes, outputsPrefix, hSplit]
      simp [beforeInputScript, WireInput.bytes]
    · simp [scriptOffsets, getElem?_mapIdx, hAt]
  output := by
    intro vout output hOut
    rw [transaction, getElem?_map, Option.map_eq_some_iff] at hOut
    rcases hOut with ⟨source, hAt, rfl⟩
    have hSplit := flatMap_split hAt (fun output => output.bytes)
    refine ⟨_, (wire.outputs.drop (vout + 1)).flatMap (·.bytes) ++ leBytes 4 wire.lockTime,
      wire.beforeOutputScript_transaction hash vout source, ?_, ?_⟩
    · rw [bytes, hSplit]
      simp [beforeOutputScript, WireOutput.bytes, WireOutput.output]
    · simp [scriptOffsets, getElem?_mapIdx, hAt, WireOutput.output]

end WireTransaction

namespace Transaction

/-
  On every accepted byte string the writer, the offset
  parser and the scanner agree with the parsed fields.
-/
theorem parsers_agree
  (bin : Bytes) (transaction : Transaction) (hParse : fromBinary bin = .ok transaction)
  (hash : TransactionRef → Except JsError Bytes) :
  transaction.write hash = .ok bin ∧ (∃ offsets, parseScriptOffsets bin = .ok offsets ∧
        transaction.LocatesScripts hash bin offsets) ∧
      ∀ suffix, BeefTx.scanRawTransaction (bin ++ suffix) = .ok ((bin, insertionOrder
                (transaction.inputs.filterMap (·.sourceTXID))),
              suffix) := by
  rcases (fromBinary_eq_ok_iff _ _).mp hParse with ⟨wire, rfl, rfl⟩
  have hTxids :
      wire.transaction.inputs.filterMap (·.sourceTXID) = wire.inputs.map (·.sourceTXID) := by
    rw [WireTransaction.transaction, List.filterMap_map]
    exact congrFun List.filterMap_eq_map wire.inputs
  constructor
  · exact wire.write_transaction hash
  constructor
  · exact ⟨wire.scriptOffsets, wire.parseScriptOffsets_bytes, wire.locatesScripts hash⟩
  · intro suffix
    rw [hTxids]
    exact wire.reads_scanRawTransaction suffix

def truncatedPushTransaction : Transaction where
  inputs :=
    [{ sourceTXID := some (List.replicate 64 '7')
       unlockingScript := some [0x4c]
       sequence := some 0xffffffff }]
  outputs := [{ satoshis := some 5, lockingScript := [0x6a] }]

/- Its serialization. -/
def truncatedPushBytes : Bytes :=
  [1, 0, 0, 0, 1] ++ List.replicate 32 0x77 ++ [0, 0, 0, 0, 1, 0x4c, 255, 255, 255, 255, 1] ++
      [5, 0, 0, 0, 0, 0, 0, 0, 1, 0x6a, 0, 0, 0, 0]

theorem parsers_agree_truncatedPush :
  BeefTx.scanRawTransaction (truncatedPushBytes ++ [0]) = .ok ((truncatedPushBytes,
        insertionOrder (truncatedPushTransaction.inputs.filterMap (·.sourceTXID))), [0]) :=
  (parsers_agree truncatedPushBytes truncatedPushTransaction (by decide) fun _ =>
      .error TransactionHeap.missingObject).2.2 [0]

end Transaction

end TsStack
