import TsStack.Lib.UnicodeText
import TsStack.Primitives.CompactSize

/-
  Errors of a wallet that is called over a wallet wire, of
  `WalletWireProcessor.ts` and `WalletWireTransceiver.ts`.

  A call is given by its parts that may throw: reading the
  request, the operation of the wallet, and writing the
  result.
-/

-- Errors

open List

namespace TsStack

open UnicodeText

/- A JavaScript string by its code units. -/
abbrev Utf16String := List UInt16

def utf16 (text : String) : Utf16String :=
  units text.toList

inductive ErrorCode where
| integer (value : Int)
| other
deriving DecidableEq, Repr

/- The parts of a thrown value that the processor looks at. -/
structure ThrownError where
  isErrorInstance : Bool
  isWalletErrorInstance : Bool
  isError : Bool
  name : Option Utf16String
  code : ErrorCode
  message : Option Utf16String
deriving DecidableEq, Repr

/- `WalletError`, of this class or of a class below it. -/
structure WalletError where
  message : Utf16String
  code : ErrorCode
  stack : Utf16String
  name : Utf16String := utf16 "WalletError"
deriving DecidableEq, Repr

def WalletError.thrown (error : WalletError) : ThrownError where
  isErrorInstance := true
  isWalletErrorInstance := true
  isError := true
  name := some error.name
  code := error.code
  message := some error.message

namespace walletErrors

def unknownError : Int := 1
def unsupportedAction : Int := 2
def abortRefused : Int := 8

end walletErrors

def ErrorCode.numericCode : ErrorCode → Int
| .integer value => value
| .other => 0

/- The codes that have a meaning of their own. -/
def isAssignedCode (code : Int) : Bool :=
  walletErrors.unsupportedAction ≤ code && code ≤ walletErrors.abortRefused

def ThrownError.isExplicitWalletError (error : ThrownError) : Bool :=
  error.isErrorInstance && isAssignedCode error.code.numericCode && (error.isWalletErrorInstance ||
      (error.isError && (error.name.map ((utf16 "WERR_").isPrefixOf ·)).getD false))

def operationFailed : ThrownError :=
  WalletError.thrown
    { message := utf16 "Wallet operation failed"
      code := .integer walletErrors.unknownError
      stack := [] }

def invokeWallet {α : Type} (operation : Except ThrownError α) :
  Except ThrownError α :=
  match operation with
  | .ok result => .ok result
  | .error error =>
    if error.isExplicitWalletError then .error error
    else .error operationFailed

-- The Processor

def maxWireErrorMessageBytes : Nat := 4096

def maxWalletWireFrameBytes : Nat := 256 * 1024 * 1024

def ThrownError.errorCode (error : ThrownError) : Int :=
  if isAssignedCode error.code.numericCode then error.code.numericCode
  else walletErrors.unknownError

/- The text of the error, `TextEncoder` then `subarray`. -/
def errorMessageBytes (message : Utf16String) : Bytes :=
  (encodeUtf8 (scalars message)).take maxWireErrorMessageBytes

/- The frame of the catch block, without the stack trace. -/
def errorFrame (error : ThrownError) : Bytes :=
  let bytes := errorMessageBytes (error.message.getD (utf16 "Unknown error"))
  UInt8.ofNat error.errorCode.toNat :: varIntNum bytes.length ++ bytes ++ varIntNum 0

structure WireCall (α : Type) where
  readArgs : Except ThrownError Unit
  operation : Except ThrownError α
  writeResult : α → Except ThrownError Bytes

namespace WireCall

variable {α : Type}

/- The body of the `try`. -/
def body (call : WireCall α) : Except ThrownError Bytes := do
  call.readArgs
  let result ← invokeWallet call.operation
  call.writeResult result

def processMessage (call : WireCall α) : Bytes :=
  match call.body with
  | .ok result => 0 :: result
  | .error error => errorFrame error

def ThrowsInWallet (call : WireCall α) (error : ThrownError) : Prop :=
  call.readArgs = .ok () ∧ call.operation = .error error

def ThrowsInProcessor (call : WireCall α) (error : ThrownError) : Prop :=
  call.readArgs = .error error ∨ (call.readArgs = .ok () ∧
      ∃ result, call.operation = .ok result ∧ call.writeResult result = .error error)

end WireCall

-- The Transceiver

/- What the transceiver throws. -/
inductive TransmitError where
| wallet (error : WalletError)
| other (error : JsError)
deriving DecidableEq, Repr

/- `TextDecoder` drops a leading byte order mark. -/
def withoutByteOrderMark : List Char → List Char
| '\uFEFF' :: text => text
| text => text

def toUTF8Strict (bytes : Bytes) : Except JsError Utf16String :=
  match decodeUtf8 bytes with
  | some text => .ok (units (withoutByteOrderMark text))
  | none => .error (.typeError "The encoded data was not valid for encoding utf-8")

def readText : ByteReader Utf16String := do
  let length ← readVarIntNumStrict
  let bytes ← ByteReader.read length
  ListParser.ofExcept (toUTF8Strict bytes)

def readWalletError (errorByte : Nat) : ByteReader WalletError := do
  let message ← readText
  let stackTrace ← readText
  pure
    { message := message
      code := .integer errorByte
      stack := stackTrace }

def assertResponseConsumed (call : String) (rest : Bytes) : Except JsError Unit :=
  if rest = [] then .ok ()
  else .error (.error s!"Wallet Wire {call} response contains trailing data")

/- The outcome of a frame that does not report success. -/
def throwWalletError (call : String) (errorByte : Nat) (rest : Bytes) : TransmitError :=
  match readWalletError errorByte rest with
  | .error error => .other error
  | .ok (error, trailing) =>
    match assertResponseConsumed call trailing with
    | .error error => .other error
    | .ok () => .wallet error

def transmit (call : String) (response : Bytes) : Except TransmitError Bytes :=
  if response.length > maxWalletWireFrameBytes then
    .error (.other (.error ("Wallet Wire response exceeds the maximum " ++ "permitted size")))
  else
    match readUInt8 response with
    | .error error => .error (.other error)
    | .ok (errorByte, rest) =>
      if errorByte = 0 then .ok rest
      else .error (throwWalletError call errorByte rest)

-- Error Frames

/-
  The limit does not fall inside a character: no byte stands
  after it, or that byte is the first of a character.
-/
def CutsBetweenCharacters (message : Utf16String) : Prop :=
  ∀ byte, (encodeUtf8 (scalars message))[ maxWireErrorMessageBytes]? = some byte →
      byte.IsUTF8FirstByte

def ReceivedText (message received : Utf16String) : Prop :=
  ∃ part, part <+: scalars message ∧ encodeUtf8 part = errorMessageBytes message ∧
      received = units (withoutByteOrderMark part)

theorem isAssignedCode_iff {code : Int} : isAssignedCode code = true ↔ 2 ≤ code ∧ code ≤ 8 := by
  unfold isAssignedCode
  rw [Bool.and_eq_true, decide_eq_true_iff, decide_eq_true_iff]
  rfl

variable (call : String) (error : ThrownError)

theorem errorCode_range : 1 ≤ error.errorCode ∧ error.errorCode ≤ 8 := by
  unfold ThrownError.errorCode
  by_cases hAssigned : isAssignedCode error.code.numericCode = true
  · rw [if_pos hAssigned]
    rcases isAssignedCode_iff.mp hAssigned with ⟨hLow, hHigh⟩
    constructor
    · omega
    · exact hHigh
  · rw [if_neg hAssigned]
    decide

theorem length_errorMessageBytes (message : Utf16String) :
  (errorMessageBytes message).length ≤ 4096 := by
  unfold errorMessageBytes
  rw [length_take]
  exact Nat.min_le_left _ _

theorem reads_readText {bytes : Bytes} {text : List Char} (hBytes : bytes = encodeUtf8 text)
  (hLen : bytes.length ≤ maxSafeInteger) :
  readText.Reads (units (withoutByteOrderMark text)) (varIntNum bytes.length ++ bytes) := by
  apply (reads_readVarIntNumStrict hLen).bind
  have hRead : (ByteReader.read bytes.length).Reads bytes
      bytes :=
    ListParser.reads_take readError bytes
  apply hRead.bind_nil
  unfold toUTF8Strict
  rw [hBytes, decodeUtf8_encodeUtf8]
  exact ListParser.reads_pure _

theorem reads_readText_nil : readText.Reads [] (varIntNum 0) := by
  have hRead := @reads_readText [] [] rfl (by decide)
  exact hRead

theorem readUInt8_cons (byte : UInt8) (rest : Bytes) :
  readUInt8 (byte :: rest) = .ok (byte.toNat, rest) := by
  have hReads := reads_readUInt 1 (n := byte.toNat) (by have hByte := byte.toNat_lt; omega)
  have hBytes : LittleEndian.leBytes 1 byte.toNat = [byte] := by simp [LittleEndian.leBytes]
  rw [hBytes] at hReads
  exact hReads rest

theorem transmit_errorFrame_eq :
  transmit call (errorFrame error) = .error (throwWalletError call error.errorCode.toNat
      (errorFrame error).tail) := by
  have hRange := errorCode_range error
  have hByte : (UInt8.ofNat error.errorCode.toNat).toNat =
        error.errorCode.toNat := by
    rw [UInt8.toNat_ofNat']
    omega
  have hMsg := length_errorMessageBytes (error.message.getD (utf16 "Unknown error"))
  have hVarInt : ∀ n ≤ 4096, (varIntNum n).length ≤ 3 := by
    intro n hN
    unfold varIntNum
    split_ifs with hOne hTwo hFour
    · simp
    · simp
    · omega
    · omega
  have hZero := hVarInt 0 (by omega)
  have hCount := hVarInt _ hMsg
  have hShort : ¬(errorFrame error).length > maxWalletWireFrameBytes := by
    unfold errorFrame maxWalletWireFrameBytes
    simp only [length_cons, length_append]
    omega
  unfold transmit
  rw [if_neg hShort]
  unfold errorFrame
  simp only [cons_append, tail_cons]
  rw [readUInt8_cons, hByte]
  dsimp only
  rw [if_neg (by omega)]

variable {message : Utf16String}

theorem transmit_errorFrame
  (hMsg : error.message = some message) (hCut : CutsBetweenCharacters message) :
  ∃ received, transmit call (errorFrame error) = .error (.wallet received) ∧
      received.code = .integer error.errorCode ∧ ReceivedText message received.message := by
  have hRange := errorCode_range error
  rcases take_encodeUtf8 hCut with ⟨part, hPart, hTake⟩
  have hSafe : (errorMessageBytes message).length ≤ maxSafeInteger :=
    Nat.le_trans (length_errorMessageBytes message) (by decide)
  have hRead : (readWalletError error.errorCode.toNat).Reads
        { message := units (withoutByteOrderMark part)
          code := .integer error.errorCode.toNat
          stack := [] }
        (varIntNum (errorMessageBytes message).length ++
          errorMessageBytes message ++ varIntNum 0) := by
    apply (reads_readText hTake hSafe).bind
    apply reads_readText_nil.bind_nil
    exact ListParser.reads_pure _
  refine ⟨{ message := units (withoutByteOrderMark part)
            code := .integer error.errorCode.toNat
            stack := [] }, ?_, ?_, part, hPart, hTake.symm, rfl⟩
  · rw [transmit_errorFrame_eq]
    unfold errorFrame
    rw [hMsg]
    dsimp only [Option.getD_some, cons_append, tail_cons]
    have hRun := hRead []
    rw [append_nil] at hRun
    unfold throwWalletError
    rw [hRun]
    rfl
  · rw [Int.toNat_of_nonneg (by omega)]

theorem transmit_errorFrame_ne_ok (result : Bytes) :
  transmit call (errorFrame error) ≠ .ok result := by
  rw [transmit_errorFrame_eq]
  exact nofun

theorem cutsBetweenCharacters_of_length_le
  (hLen : (encodeUtf8 (scalars message)).length ≤ maxWireErrorMessageBytes) :
  CutsBetweenCharacters message := by
  intro byte hByte
  rw [getElem?_eq_none hLen] at hByte
  exact nomatch hByte

theorem receivedText_of_length_le {received : Utf16String} (hRecv : ReceivedText message received)
  (hLen : (encodeUtf8 (scalars message)).length ≤ maxWireErrorMessageBytes) :
  received = units (withoutByteOrderMark (scalars message)) := by
  rcases hRecv with ⟨part, _, hBytes, rfl⟩
  unfold errorMessageBytes at hBytes
  rw [take_of_length_le hLen] at hBytes
  have hDecode := congrArg decodeUtf8 hBytes
  rw [decodeUtf8_encodeUtf8, decodeUtf8_encodeUtf8] at hDecode
  rw [Option.some.inj hDecode]

-- Calls that Throw

namespace WireCall

variable {α : Type} {call : WireCall α} {error : ThrownError}

theorem processMessage_of_throwsInProcessor (hThrows : call.ThrowsInProcessor error) :
  call.processMessage = errorFrame error := by
  unfold processMessage body
  rcases hThrows with hRead | ⟨hRead, result, hRun, hWrite⟩
  · rw [hRead]
    rfl
  · rw [hRead, hRun]
    change (match call.writeResult result with
      | .ok result => 0 :: result
      | .error error => errorFrame error) = _
    rw [hWrite]

theorem processMessage_of_throwsInWallet (hThrows : call.ThrowsInWallet error) :
  call.processMessage =
    if error.isExplicitWalletError then errorFrame error
    else errorFrame operationFailed := by
  unfold processMessage body
  rw [hThrows.1, hThrows.2, ok_bind]
  unfold invokeWallet
  dsimp only
  by_cases hExplicit : error.isExplicitWalletError = true
  · rw [if_pos hExplicit, if_pos hExplicit]
    rfl
  · rw [if_neg hExplicit, if_neg hExplicit]
    rfl

end WireCall

theorem isExplicitWalletError_thrown (error : WalletError) :
  error.thrown.isExplicitWalletError = isAssignedCode error.code.numericCode := by
  unfold ThrownError.isExplicitWalletError WalletError.thrown
  simp

theorem errorCode_of_assigned
  {error : WalletError} (hAssigned : isAssignedCode error.code.numericCode = true) :
  .integer error.thrown.errorCode = error.code := by
  have hCode : error.thrown.errorCode = error.code.numericCode := if_pos hAssigned
  rw [hCode]
  cases hKind : error.code with
  | integer value => rfl
  | other =>
    rw [hKind] at hAssigned
    exact absurd hAssigned (by decide)

/-
  An error of the wallet with a code of its own keeps its code and its text; any other error of
  the wallet is replaced.  An error of the processor keeps its text, and its code where it has
  one.  None is taken for a success.
-/
theorem transmit_walletError {α : Type} (name : String) (call : WireCall α) (error : WalletError) :
  (call.ThrowsInWallet error.thrown → isAssignedCode error.code.numericCode = true →
    CutsBetweenCharacters error.message → ∃ received,
        transmit name call.processMessage = .error (.wallet received) ∧
          received.code = error.code ∧ ReceivedText error.message received.message) ∧
  (call.ThrowsInWallet error.thrown → isAssignedCode error.code.numericCode = false → ∃ received,
        transmit name call.processMessage = .error (.wallet received) ∧
          received.code = .integer walletErrors.unknownError ∧
          received.message = utf16 "Wallet operation failed") ∧
  (call.ThrowsInProcessor error.thrown → CutsBetweenCharacters error.message → ∃ received,
        transmit name call.processMessage = .error (.wallet received) ∧
          received.code = (if isAssignedCode error.code.numericCode then error.code
            else .integer walletErrors.unknownError) ∧
          ReceivedText error.message received.message) ∧
  (call.ThrowsInWallet error.thrown ∨ call.ThrowsInProcessor error.thrown → ∀ result,
      transmit name call.processMessage ≠ .ok result) := by
  refine ⟨?_, ?_, ?_, ?_⟩
  · intro hThrows hAssigned hCut
    rw [WireCall.processMessage_of_throwsInWallet hThrows,
      isExplicitWalletError_thrown, if_pos hAssigned]
    rcases transmit_errorFrame name error.thrown rfl hCut with ⟨received, hTransmit, hCode, hText⟩
    refine ⟨received, hTransmit, ?_, hText⟩
    rw [hCode, errorCode_of_assigned hAssigned]
  · intro hThrows hOther
    rw [WireCall.processMessage_of_throwsInWallet hThrows, isExplicitWalletError_thrown, hOther]
    have hShort : (encodeUtf8 (scalars (utf16 "Wallet operation failed"))).length ≤
            maxWireErrorMessageBytes := by
      decide +kernel
    rcases transmit_errorFrame name operationFailed rfl
        (cutsBetweenCharacters_of_length_le hShort) with
      ⟨received, hTransmit, hCode, hText⟩
    refine ⟨received, hTransmit, hCode, ?_⟩
    rw [receivedText_of_length_le hText hShort]
    decide +kernel
  · intro hThrows hCut
    rw [WireCall.processMessage_of_throwsInProcessor hThrows]
    rcases transmit_errorFrame name error.thrown rfl hCut with ⟨received, hTransmit, hCode, hText⟩
    refine ⟨received, hTransmit, ?_, hText⟩
    rw [hCode]
    by_cases hAssigned : isAssignedCode error.code.numericCode = true
    · rw [if_pos hAssigned, errorCode_of_assigned hAssigned]
    · rw [if_neg hAssigned]
      exact congrArg ErrorCode.integer (if_neg hAssigned)
  · intro hThrows result
    rcases hThrows with hWallet | hProcessor
    · rw [WireCall.processMessage_of_throwsInWallet hWallet]
      split
      · exact transmit_errorFrame_ne_ok name _ result
      · exact transmit_errorFrame_ne_ok name _ result
    · rw [WireCall.processMessage_of_throwsInProcessor hProcessor]
      exact transmit_errorFrame_ne_ok name _ result

def throwingCall (error : WalletError) : WireCall Unit where
  readArgs := .ok ()
  operation := .error error.thrown
  writeResult := fun _ => .ok []

def refusedParameter : WalletError where
  message := utf16 "paramètre refusé"
  code := .integer 6
  stack := utf16 "at wallet.ts:42"
  name := utf16 "WERR_INVALID_PARAMETER"

theorem transmit_walletError_refusedParameter :
  ∃ received, transmit "getHeight" (throwingCall refusedParameter).processMessage =
        .error (.wallet received) ∧
      received.code = .integer 6 ∧ ReceivedText refusedParameter.message
        received.message :=
  (transmit_walletError "getHeight" (throwingCall refusedParameter) refusedParameter).1
    ⟨rfl, rfl⟩ (by decide) (cutsBetweenCharacters_of_length_le (by decide +kernel))

def unassignedError : WalletError where
  message := utf16 "no such height"
  code := .integer 42
  stack := []

theorem transmit_changes_code :
  ¬∀ (name : String) (error : WalletError), ∃ received,
      transmit name (throwingCall error).processMessage = .error (.wallet received) ∧
        received.code = error.code ∧ received.message <+: error.message := by
  intro hAll
  rcases hAll "getHeight" unassignedError with ⟨received, hTransmit, hCode, _⟩
  have hRun : transmit "getHeight" (throwingCall unassignedError).processMessage = .error (.wallet
          { message := utf16 "Wallet operation failed"
            code := .integer 1
            stack := [] }) := by
    decide +kernel
  rw [hRun] at hTransmit
  have hReceived := TransmitError.wallet.inj (Except.error.inj hTransmit)
  rw [← hReceived] at hCode
  exact absurd hCode (by decide)

end TsStack
