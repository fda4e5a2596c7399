import TsStack.Script.Multisig
import TsStack.Script.SpendInvariant

/-
  `OP_CHECKSIG` against `OP_CHECKMULTISIG` with one key.

  In the unlocking script the first hashes the chunks of the
  locking script too and the second does not.
-/

-- Subscripts

namespace TsStack

open TransactionSignature

def SpendParams.withVerify (params : SpendParams)
  (verify : TransactionSignature → PublicKey → Script → Except JsError Bool) : SpendParams :=
  { params with crypto := { params.crypto with verify := verify } }

namespace Spend

open StateProgram

variable {params : SpendParams} {spend after : Spend} {bufSig bufPubkey : Bytes}
variable {fromDER : Bytes → Except JsError (Int × Int)}

def pushItems (items : List StackItem) (spend : Spend) : Spend :=
  { spend with
    stack := items ++ spend.stack
    stackMem := spend.stackMem + totalLength spend.arrays items }

@[simp] theorem bytes_pushItems (items : List StackItem) (item : StackItem) :
  (pushItems items spend).bytes item = spend.bytes item := rfl

variable {β : Type} {next : Unit → SpendM β} {result : β}

def AcceptsEncodings (params : SpendParams) (spend : Spend) (bufSig bufPubkey : Bytes) : Prop :=
  checkSignatureEncoding bufSig params spend = .ok () spend ∧
    checkPublicKeyEncoding bufPubkey params spend = .ok () spend

theorem AcceptsEncodings.withVerify (hAccepts : AcceptsEncodings params spend bufSig bufPubkey)
  (verify : TransactionSignature → PublicKey → Script → Except JsError Bool) (other : Spend) :
  AcceptsEncodings (params.withVerify verify) other bufSig
    bufPubkey := by
  rcases hAccepts with ⟨hSig, hPubkey⟩
  unfold checkSignatureEncoding at hSig
  unfold checkPublicKeyEncoding at hPubkey
  unfold AcceptsEncodings checkSignatureEncoding checkPublicKeyEncoding
  have hDer : (params.withVerify verify).shouldEnforceDerSignatures =
    params.shouldEnforceDerSignatures := rfl
  have hStrict : (params.withVerify verify).shouldEnforceStrictEncoding =
    params.shouldEnforceStrictEncoding := rfl
  have hSigs : (params.withVerify verify).acceptsSignature =
    params.acceptsSignature := rfl
  have hKeys : (params.withVerify verify).crypto.publicKeyFromDER =
    params.crypto.publicKeyFromDER := rfl
  simp only [bind_run, read_run, errorIf, throwIf, hDer, hStrict, hSigs, hKeys] at *
  constructor
  · split_ifs at hSig ⊢ with hRefused
    · cases hSig
    · rfl
  · split_ifs at hPubkey ⊢ <;> first | rfl | cases hPubkey

theorem AcceptsEncodings.at
  (hAccepts : AcceptsEncodings params spend bufSig bufPubkey) (other : Spend) :
  AcceptsEncodings params other bufSig bufPubkey :=
  hAccepts.withVerify params.crypto.verify other

variable {key sig : StackItem}

def oneOfOneItems (key sig : StackItem) : List StackItem :=
  [.own [1], key, .own [1], sig, .own []]

variable {depth : Nat}

section

variable (hSig : spend.bytes sig ≠ []) (hLimit : (pushItems [key, sig] spend).WithinLimit params)

include hSig hLimit

end

-- Agreement

def Decodes (params : SpendParams) (bufSig bufPubkey : Bytes) : Prop :=
  (params.parseChecksigSignature bufSig).isOk = true ∧
    (params.crypto.publicKeyFromDER bufPubkey).isOk = true

/-
  Both opcodes return the same states, so with the same
  truth value on top, or both fail; for any verification.
-/
def Agrees (params : SpendParams) (spend : Spend) (key sig : StackItem) : Prop :=
  ∀ verify after, opChecksig OP.OP_CHECKSIG (params.withVerify verify)
        (pushItems [key, sig] spend) = .ok () after ↔
      opCheckmultisig OP.OP_CHECKMULTISIG (params.withVerify verify)
        (pushItems (oneOfOneItems key sig) spend) = .ok () after

end Spend

end TsStack
