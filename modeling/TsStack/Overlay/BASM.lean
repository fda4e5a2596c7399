import Mathlib.Data.List.Sort
import TsStack.Overlay.RemoteSecurity

/-
  The roots and the anchor chain hash of `BASM.ts`.

  Hashes in text carry the check that `assertHash` makes, so
  that a stored hash needs no check.  Digits are decoded
  alike in both cases.
-/

-- Hashes

namespace TsStack.Overlay

/- Thirty-two bytes in internal order. -/
structure Digest where
  bytes : Bytes
  length_eq : bytes.length = 32
deriving DecidableEq

structure HashHex where
  value : JsString
  valid : isHashHex value = true
deriving DecidableEq

def sha256d (bytes : Bytes) : Digest where
  bytes := hash256 bytes
  length_eq := hash256_length bytes

theorem exists_hexPairs (digits : JsString) (hEven : digits.length % 2 = 0)
  (hDigits : ∀ c ∈ digits, (hexCharToValue c).isSome = true) :
  ∃ bytes, hexPairs digits = some bytes ∧ 2 * bytes.length = digits.length := by
  match digits, hEven, hDigits with
  | [], _, _ => exact ⟨[], rfl, rfl⟩
  | [_], hEven, _ => simp at hEven
  | hi :: lo :: rest, hEven, hDigits =>
    rcases exists_hexPairs rest (by simp only [List.length_cons] at hEven; omega)
      (fun c hIn => hDigits c (by simp [hIn])) with
      ⟨bytes, hRest, hLen⟩
    rcases Option.isSome_iff_exists.mp (hDigits hi (by simp)) with ⟨h, hHi⟩
    rcases Option.isSome_iff_exists.mp (hDigits lo (by simp)) with ⟨l, hLo⟩
    refine ⟨UInt8.ofNat (16 * h + l) :: bytes, ?_, ?_⟩
    · rw [hexPairs, hHi, hLo, hRest]
    · simp only [List.length_cons]
      omega

theorem HashHex.length_hexPairs (hash : HashHex) : ((hexPairs hash.value).getD []).length = 32 := by
  have hValid := hash.valid
  unfold isHashHex at hValid
  simp only [Bool.and_eq_true, decide_eq_true_eq, List.all_eq_true] at hValid
  rcases exists_hexPairs hash.value (by omega) hValid.2 with ⟨bytes, hPairs, hLen⟩
  rw [hPairs, Option.getD_some]
  omega

def displayHexToInternal (hash : HashHex) : Digest where
  bytes := ((hexPairs hash.value).getD []).reverse
  length_eq := by
    rw [List.length_reverse]
    exact hash.length_hexPairs

theorem isHashHex_toHex {bytes : Bytes} (hLen : bytes.length = 32) :
  isHashHex (toHex bytes) = true := by
  unfold isHashHex
  rw [Bool.and_eq_true, decide_eq_true_eq, List.all_eq_true, length_toHex]
  exact ⟨by omega, fun _ hMem => isSome_of_mem_toHex hMem⟩

def internalToDisplayHex (digest : Digest) : HashHex where
  value := toHex digest.bytes.reverse
  valid :=
    isHashHex_toHex (by
      rw [List.length_reverse]
      exact digest.length_eq)

def BASM_ZERO_HASH : HashHex where
  value := List.replicate 64 '0'
  valid := by decide

def computeTac (prevTac blockHash basmRoot : HashHex) : HashHex :=
  internalToDisplayHex (sha256d ((displayHexToInternal prevTac).bytes ++
        (displayHexToInternal blockHash).bytes ++ (displayHexToInternal basmRoot).bytes))

-- Roots

def MAX_BASM_ROOT_LEAVES : Nat := 100000

structure AdmittedTxRef where
  txid : HashHex
  blockIndex : Nat
deriving DecidableEq

def normalizeAdmittedTxids (admitted : List AdmittedTxRef) :
  Except JsError (List HashHex) :=
  if admitted.length > MAX_BASM_ROOT_LEAVES then
    .error (.typeError ("BASM admission sets are capped at " ++
        toString MAX_BASM_ROOT_LEAVES ++ " entries"))
  else
    match admitted.findIdx? fun item => !isSafeInteger item.blockIndex with
    | some originalIndex =>
      .error (.typeError ("BASM admission at index " ++ toString originalIndex ++ " is invalid"))
    | none =>
      if (admitted.map fun item => toLowerCase item.txid.value).Nodup ∧
          (admitted.map (·.blockIndex)).Nodup then
        .ok ((admitted.insertionSort fun left right =>
            left.blockIndex ≤ right.blockIndex).map (·.txid))
      else
        .error (.typeError ("BASM admission sets must contain unique " ++
            "txids and block indexes"))

/- One turn of the loop of `computeBasmRoot`. -/
def nextLayer : List Digest → List Digest
| [] => []
| [left] => [sha256d (left.bytes ++ left.bytes)]
| left :: right :: layer => sha256d (left.bytes ++ right.bytes) :: nextLayer layer

/- The loop of `computeBasmRoot`, by its turns. -/
def reduceLayers : Nat → List Digest → List Digest
| 0, layer => layer
| turns + 1, layer =>
  if layer.length > 1 then reduceLayers turns (nextLayer layer)
  else layer

def computeBasmRoot (admitted : List AdmittedTxRef) :
  Except JsError HashHex := do
  let txids ← normalizeAdmittedTxids admitted
  match reduceLayers txids.length (txids.map displayHexToInternal) with
  | [] => return BASM_ZERO_HASH
  | digest :: _ => return internalToDisplayHex digest

end TsStack.Overlay
