import TsStack.Primitives.Hex

/-
  The fold of admin actions of `AssetStateReducer.ts`.

  Every identity and outpoint of a decoded action is in
  lower case hexadecimal, so `normalized` is given on ASCII.
-/

-- Actions and States

namespace TsStack.Mandala

/- `AdminKind` and `RegistryKind`. -/
inductive AdminKind where
| issue
| redeem
| reissue
| pause
| unpause
| blockIdentity
| unblockIdentity
| allowIdentity
| unallowIdentity
| setAccessMode
| freezeOutput
| unfreezeOutput
| setFeeRate
| admitIdentity
| revokeIdentity
deriving DecidableEq, Repr

inductive AccessMode where
| denylist
| allowlist
deriving DecidableEq, Repr

/- `feeRatePerKb` is absent, null or a number. -/
structure AdminDetails where
  kind : AdminKind
  outpoint : Option JsString := none
  recipient : Option JsString := none
  identityKey : Option JsString := none
  mode : Option AccessMode := none
  feeRatePerKb : Option (Option Nat) := none
deriving DecidableEq, Repr

structure FrozenRef where
  outpoint : JsString
  amount : Nat
  owner : JsString
deriving DecidableEq, Repr

structure AssetAdminState where
  tokenId : JsString
  isPaused : Bool
  accessMode : AccessMode
  blockedIdentities : List JsString
  allowedIdentities : List JsString
  frozenOutpoints : List FrozenRef
  evictedOutpoints : List JsString
  feeRatePerKb : Option Nat
  lastProcessedHeight : Nat
  lastProcessedOffset : Nat
  lastAdmitSeq : Nat
deriving DecidableEq, Repr

/- What a fold needs from outside the action. -/
structure FoldContext where
  frozenAmount : Option Nat := none
  frozenOwner : Option JsString := none
deriving DecidableEq, Repr

def defaultAssetState (tokenId : JsString) (feeRatePerKb : Option Nat) : AssetAdminState where
  tokenId := tokenId
  isPaused := false
  accessMode := .denylist
  blockedIdentities := []
  allowedIdentities := []
  frozenOutpoints := []
  evictedOutpoints := []
  feeRatePerKb := feeRatePerKb
  lastProcessedHeight := 0
  lastProcessedOffset := 0
  lastAdmitSeq := 0

def normalized (value : JsString) : JsString :=
  value.map Char.toLower

def addUnique (xs : List JsString) (x : JsString) : List JsString :=
  if xs.any fun value => normalized value = normalized x then xs
  else xs ++ [normalized x]

def remove (xs : List JsString) (x : JsString) : List JsString :=
  xs.filter fun value => normalized value ≠ normalized x

def isFrozen (frozen : List FrozenRef) (outpoint : JsString) : Bool :=
  frozen.any fun f => normalized f.outpoint = outpoint

def unfrozen (frozen : List FrozenRef) (outpoint : JsString) : List FrozenRef :=
  frozen.filter fun f => normalized f.outpoint ≠ outpoint

-- Handlers

/- The handlers of `onIdentity`. -/
def onBlocked (update : List JsString → JsString → List JsString) (s : AssetAdminState)
  (d : AdminDetails) : AssetAdminState :=
  match d.identityKey with
  | none => s
  | some identityKey =>
    { s with
      blockedIdentities := update s.blockedIdentities identityKey }

def onAllowed (update : List JsString → JsString → List JsString) (s : AssetAdminState)
  (d : AdminDetails) : AssetAdminState :=
  match d.identityKey with
  | none => s
  | some identityKey =>
    { s with
      allowedIdentities := update s.allowedIdentities identityKey }

variable (s : AssetAdminState)

def freezeOutput (d : AdminDetails) (ctx : FoldContext) : AssetAdminState :=
  match d.outpoint with
  | none => s
  | some outpoint =>
    if isFrozen s.frozenOutpoints (normalized outpoint) then s
    else
      { s with
        frozenOutpoints := s.frozenOutpoints ++ [⟨normalized outpoint, ctx.frozenAmount.getD 0,
              normalized (ctx.frozenOwner.getD [])⟩] }

def unfreezeOutput (d : AdminDetails) : AssetAdminState :=
  match d.outpoint with
  | none => s
  | some outpoint =>
    { s with
      frozenOutpoints := unfrozen s.frozenOutpoints (normalized outpoint) }

def reissue (d : AdminDetails) : AssetAdminState :=
  match d.outpoint with
  | none => s
  | some outpoint =>
    { s with
      frozenOutpoints := unfrozen s.frozenOutpoints (normalized outpoint)
      evictedOutpoints := addUnique s.evictedOutpoints (normalized outpoint) }

/- `foldAction`; a kind without a handler changes nothing. -/
def foldAction
  (state : AssetAdminState) (details : AdminDetails) (ctx : FoldContext) : AssetAdminState :=
  match details.kind with
  | .pause => { state with isPaused := true }
  | .unpause => { state with isPaused := false }
  | .blockIdentity => onBlocked addUnique state details
  | .unblockIdentity => onBlocked remove state details
  | .allowIdentity => onAllowed addUnique state details
  | .unallowIdentity => onAllowed remove state details
  | .setAccessMode =>
    { state with
      accessMode := details.mode.getD state.accessMode }
  | .freezeOutput => freezeOutput state details ctx
  | .unfreezeOutput => unfreezeOutput state details
  | .reissue => reissue state details
  | .setFeeRate =>
    { state with
      feeRatePerKb := details.feeRatePerKb.getD state.feeRatePerKb }
  | .issue => state
  | .redeem => state
  | .admitIdentity => state
  | .revokeIdentity => state

end TsStack.Mandala
