import Strimz.Runs
import Strimz.PayerSignature

/-!
# StrimzPayments

One-shot payments (`core/StrimzPayments.sol`), over an arbitrary `Outside`.
`pay` pulls from the caller's allowance straight to the collector and the payout
address. `payWithAuthorization` anyone may submit: it pulls the gross to the
contract with an EIP-3009 authorisation and forwards it, and the payer's signed
intent decides where to.
-/

namespace Strimz.Payments

open Tx

inductive Event where
  | paymentExecuted (merchantId : Nat) (payer token : Address)
      (amount feeAmount netAmount : Uint256) (ref : Bytes32)
  | tokensRescued (token to_ : Address) (amount : Uint256) (by_ : Address)
  | dependencyUpdated (name : String) (newAddress : Address)
deriving Repr, DecidableEq

structure Storage where
  hasRole : RoleTable
  paused : Bool
  entered : Bool
  registry : Address
  feeCollector : Address
  tokenWhitelist : Address
  logs : List Event

/-- The storage the constructor leaves behind, whatever roles were granted. -/
def deployed (hasRole : RoleTable) (registry feeCollector tokenWhitelist : Address) :
    Storage where
  hasRole := hasRole
  paused := false
  entered := false
  registry := registry
  feeCollector := feeCollector
  tokenWhitelist := tokenWhitelist
  logs := []

@[simps]
def Storage.setEntered (entered : Bool) (s : Storage) : Storage := { s with entered := entered }

@[simps]
def Storage.log (s : Storage) (e : Event) : Storage := { s with logs := s.logs ++ [e] }

section Code

variable {ξ δ : Type}

abbrev Call (ξ α : Type) := Tx Revert (Ctx Storage ξ) α

def emit (e : Event) : Call ξ Unit := sstore (·.log e)

def nonReentrant {α : Type} (body : Call ξ α) : Call ξ α :=
  guarded Storage.entered Storage.setEntered body

variable (O : Outside ξ δ) (this : Address)

/-! ## Pausing, dependencies, rescue -/

def pause (msg : Msg) : Call ξ Unit := do
  let s ← sload
  onlyRole s.hasRole .pauser msg.sender
  whenNotPaused s.paused
  sstore fun s => { s with paused := true }

def unpause (msg : Msg) : Call ξ Unit := do
  let s ← sload
  onlyRole s.hasRole .admin msg.sender
  whenPaused s.paused
  sstore fun s => { s with paused := false }

/-- What the three dependency setters share; each is this at its own slot. -/
def setDependency (msg : Msg) (name : String) (write : Address → Storage → Storage)
    (v : Address) : Call ξ Unit := do
  let s ← sload
  onlyRole s.hasRole .defaultAdmin msg.sender
  whenPaused s.paused
  revertIf (v = 0) (.payments .zeroAddress)
  sstore (write v)
  emit (.dependencyUpdated name v)

def setRegistry (msg : Msg) (v : Address) : Call ξ Unit :=
  setDependency msg "registry" (fun v s => { s with registry := v }) v

def setFeeCollector (msg : Msg) (v : Address) : Call ξ Unit :=
  setDependency msg "feeCollector" (fun v s => { s with feeCollector := v }) v

def setTokenWhitelist (msg : Msg) (v : Address) : Call ξ Unit :=
  setDependency msg "tokenWhitelist" (fun v s => { s with tokenWhitelist := v }) v

def rescue (msg : Msg) (token to_ : Address) (amount : Uint256) : Call ξ Unit := do
  let s ← sload
  onlyRole s.hasRole .admin msg.sender
  nonReentrant do
    revertIf (to_ = 0) (.payments .zeroAddress)
    revertIf (amount = 0) (.payments .invalidAmount)
    call (O.safeTransfer ⟨this, msg.timestamp⟩ token to_ amount)
    emit (.tokensRescued token to_ amount msg.sender)

/-! ## Core flow -/

def pay (msg : Msg) (merchantId : Nat) (token : Address) (amount : Uint256) (ref : Bytes32) :
    Call ξ Unit := do
  let s ← sload
  whenNotPaused s.paused
  nonReentrant do
    revertIf (amount = 0) (.payments .invalidAmount)
    let allowed ← staticcall (O.isWhitelisted s.tokenWhitelist token)
    revertIf (allowed = false) (.payments (.invalidToken token))
    let m ← staticcall (O.requireActiveMerchant s.registry merchantId)
    let feeAmount := feeOf amount m.feeBps
    let netAmount ← checkedSub amount feeAmount
    let self : Msg := ⟨this, msg.timestamp⟩
    collectFee O self token s.feeCollector merchantId feeAmount
      (exactTransferFrom O.toToken (.payments .nonStandardTransfer) self token msg.sender
        s.feeCollector feeAmount)
    exactTransferFrom O.toToken (.payments .nonStandardTransfer) self token msg.sender
      m.payoutAddress netAmount
    emit (.paymentExecuted merchantId msg.sender token amount feeAmount netAmount ref)

def payIntent (merchantId : Nat) (token : Address) (auth : PayAuthorization) (ref : Bytes32) :
    PayIntent where
  merchantId := merchantId
  token := token
  amount := auth.amount
  nonce := auth.nonce
  validBefore := auth.validBefore
  ref := ref

/-- `_verifyPayIntent` -/
def verifyPayIntent (merchantId : Nat) (token : Address) (auth : PayAuthorization)
    (ref : Bytes32) (intentSig : Bytes) : Call ξ Unit := do
  let digest := O.payIntentDigest (payIntent merchantId token auth ref)
  let valid ← staticcall fun x =>
    .ok (PayerSignature.isValid O.toSignatures auth.from_ digest intentSig x)
  revertIf (valid = false) (.payments .invalidIntent)

/-- The authorisation the token is asked to take: `auth`, to this contract. -/
def toReceive (auth : PayAuthorization) : ReceiveAuthorization where
  from_ := auth.from_
  to_ := this
  value := auth.amount
  validAfter := auth.validAfter
  validBefore := auth.validBefore
  nonce := auth.nonce

/-- `_receive` -/
def receive (msg : Msg) (token : Address) (auth : PayAuthorization) (authSig : Bytes) :
    Call ξ Unit := do
  let self : Msg := ⟨this, msg.timestamp⟩
  let codeLength ← staticcall fun x => .ok (O.codeLength auth.from_ x)
  if codeLength ≠ 0 then
    call (O.receiveWithAuthorizationBytes self token (toReceive this auth) authSig)
  else
    match PayerSignature.split authSig with
    | none => throw (.payments .invalidSignature)
    | some vrs => call (O.receiveWithAuthorization self token (toReceive this auth) vrs)

def payWithAuthorization (msg : Msg) (merchantId : Nat) (token : Address)
    (auth : PayAuthorization) (ref : Bytes32) (authSig intentSig : Bytes) : Call ξ Unit := do
  let s ← sload
  whenNotPaused s.paused
  nonReentrant do
    revertIf (auth.amount = 0) (.payments .invalidAmount)
    let allowed ← staticcall (O.isWhitelisted s.tokenWhitelist token)
    revertIf (allowed = false) (.payments (.invalidToken token))
    let supported ←
      staticcall (O.supportsCapability s.tokenWhitelist token CAP_TRANSFER_AUTH_3009)
    revertIf (supported = false) (.payments (.unsupportedCapability token))
    verifyPayIntent O merchantId token auth ref intentSig
    let m ← staticcall (O.requireActiveMerchant s.registry merchantId)
    exactly O.toToken (.payments .nonStandardTransfer) token this auth.amount
      (receive O this msg token auth authSig)
    let feeAmount := feeOf auth.amount m.feeBps
    let netAmount ← checkedSub auth.amount feeAmount
    let self : Msg := ⟨this, msg.timestamp⟩
    collectFee O self token s.feeCollector merchantId feeAmount
      (exactTransfer O.toToken (.payments .nonStandardTransfer) self token s.feeCollector
        feeAmount)
    exactTransfer O.toToken (.payments .nonStandardTransfer) self token m.payoutAddress netAmount
    emit (.paymentExecuted merchantId auth.from_ token auth.amount feeAmount netAmount ref)

/-! ## The contract as a machine -/

/-- The state-changing entry points; `setRoles` for whatever the access control
does to the role table, and `external` for everything that happens outside. -/
inductive Action (ξ : Type) where
  | pay (merchantId : Nat) (token : Address) (amount : Uint256) (ref : Bytes32)
  | payWithAuthorization (merchantId : Nat) (token : Address) (auth : PayAuthorization)
      (ref : Bytes32) (authSig intentSig : Bytes)
  | pause
  | unpause
  | setRegistry (v : Address)
  | setFeeCollector (v : Address)
  | setTokenWhitelist (v : Address)
  | rescue (token to_ : Address) (amount : Uint256)
  | setRoles (hasRole : RoleTable)
  | external (f : ξ → ξ)

structure Label (ξ : Type) where
  msg : Msg
  action : Action ξ

def dispatch (msg : Msg) : Action ξ → Call ξ Unit
  | .pay merchantId token amount ref => pay O this msg merchantId token amount ref
  | .payWithAuthorization merchantId token auth ref authSig intentSig =>
      payWithAuthorization O this msg merchantId token auth ref authSig intentSig
  | .pause => pause msg
  | .unpause => unpause msg
  | .setRegistry v => setRegistry msg v
  | .setFeeCollector v => setFeeCollector msg v
  | .setTokenWhitelist v => setTokenWhitelist msg v
  | .rescue token to_ amount => rescue O this msg token to_ amount
  | .setRoles hasRole => sstore fun s => { s with hasRole := hasRole }
  | .external f => modify fun c => { c with ext := f c.ext }

/-- One transaction: a revert leaves everything as it was. -/
def step (c : Ctx Storage ξ) (l : Label ξ) : Ctx Storage ξ :=
  commit (dispatch O this l.msg l.action) c

/-- The state before the `n`-th transaction of a run from deployment. -/
abbrev runAt (hasRole : RoleTable) (registry feeCollector tokenWhitelist : Address) (x : ξ)
    (ls : List (Label ξ)) (n : Nat) : Ctx Storage ξ :=
  Runs.stateAt (step O this) ⟨deployed hasRole registry feeCollector tokenWhitelist, x⟩ ls n

end Code

end Strimz.Payments
