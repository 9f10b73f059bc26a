import Strimz.Registry

/-!
# What the contracts call

The code a contract reaches through an address: ERC-20 tokens with EIP-2612
and EIP-3009 (`Token`), the two ways an account accepts a digest
(`Signatures`), and the other contracts of the deployment (`Outside`). All of
it acts on a state `ξ` outside the caller. A contract model is written against
an arbitrary `Outside`; what a result needs of it is a hypothesis of that
result. Tokens are the whitelisted stablecoins, which do not call back.

Digests live in a type `δ` of their own: EIP-712 hashing enters as the two
digest functions, which already close over the verifying contract's domain.
-/

namespace Strimz

open Tx

/-- `IStrimzSubscriptions.PermitData`. -/
structure PermitData where
  owner : Address
  value : Uint256
  deadline : Uint256
deriving Repr, DecidableEq

/-- `IStrimzPayments.PayAuthorization`. -/
structure PayAuthorization where
  from_ : Address
  amount : Uint256
  validAfter : Uint256
  validBefore : Uint256
  nonce : Bytes32
deriving Repr, DecidableEq

/-- The fields under `SUBSCRIPTION_INTENT_TYPEHASH`. -/
structure SubscriptionIntent where
  merchantId : Nat
  token : Address
  amount : Uint256
  interval : Uint32
  startAt : Uint64
  endAt : Uint64
  permitDeadline : Uint256
  permitValue : Uint256
  nonce : Bytes32
deriving Repr, DecidableEq

/-- The fields under `PAY_INTENT_TYPEHASH`. -/
structure PayIntent where
  merchantId : Nat
  token : Address
  amount : Uint256
  nonce : Bytes32
  validBefore : Uint256
  ref : Bytes32
deriving Repr, DecidableEq

/-- The arguments of `IERC3009.receiveWithAuthorization` under the signature. -/
structure ReceiveAuthorization where
  from_ : Address
  to_ : Address
  value : Uint256
  validAfter : Uint256
  validBefore : Uint256
  nonce : Bytes32
deriving Repr, DecidableEq

/-- The part of a token the contracts use. The first address is the token's,
and `msg` is the message the token sees. `permit` and `receiveWithAuthorization`
are the `v, r, s` overloads, the `Bytes` ones the `bytes` overloads. -/
structure Token (ξ : Type) where
  balanceOf : Address → Address → ξ → Except Revert Uint256
  allowance : Address → Address → Address → ξ → Except Revert Uint256
  safeTransfer : Msg → Address → Address → Uint256 → ξ → Except Revert ξ
  safeTransferFrom : Msg → Address → Address → Address → Uint256 → ξ → Except Revert ξ
  permit : Msg → Address → Address → Address → Uint256 → Uint256 →
    UInt8 × Bytes32 × Bytes32 → ξ → Except Revert ξ
  permitBytes : Msg → Address → Address → Address → Uint256 → Uint256 → Bytes → ξ →
    Except Revert ξ
  receiveWithAuthorization : Msg → Address → ReceiveAuthorization →
    UInt8 × Bytes32 × Bytes32 → ξ → Except Revert ξ
  receiveWithAuthorizationBytes : Msg → Address → ReceiveAuthorization → Bytes → ξ →
    Except Revert ξ

/-- How an account answers for a digest: its code size, ERC-1271 for an account
with code, and `ECDSA.tryRecover` (`none` for any error). -/
structure Signatures (ξ δ : Type) where
  codeLength : Address → ξ → Nat
  isValidERC1271SignatureNow : Address → δ → Bytes → ξ → Bool
  tryRecover : δ → UInt8 → Bytes32 → Bytes32 → Option Address

/-- Everything outside a contract. -/
structure Outside (ξ δ : Type) extends Token ξ, Signatures ξ δ where
  isWhitelisted : Address → Address → ξ → Except Revert Bool
  supportsCapability : Address → Address → UInt8 → ξ → Except Revert Bool
  getMerchant : Address → Nat → ξ → Except Revert Merchant
  requireActiveMerchant : Address → Nat → ξ → Except Revert Merchant
  accrue : Msg → Address → Address → Nat → Uint256 → ξ → Except Revert ξ
  subscriptionIntentDigest : SubscriptionIntent → δ
  payIntentDigest : PayIntent → δ

/-- `TokenWhitelist.CAP_PERMIT_2612` -/
def CAP_PERMIT_2612 : UInt8 := 1
/-- `TokenWhitelist.CAP_TRANSFER_AUTH_3009` -/
def CAP_TRANSFER_AUTH_3009 : UInt8 := 2

/-! ## The fee split -/

def BPS_DENOMINATOR : Uint256 := 10000

/-- `(amount * feeBps) / BPS_DENOMINATOR`, unchecked in every settlement path. -/
def feeOf (amount : Uint256) (feeBps : Uint16) : Uint256 :=
  amount * feeBps.setWidth 256 / BPS_DENOMINATOR

theorem toNat_feeOf (amount : Uint256) (feeBps : Uint16) :
    (feeOf amount feeBps).toNat = amount.toNat * feeBps.toNat % 2 ^ 256 / 10000 := by
  have hbps : (feeBps.setWidth 256).toNat = feeBps.toNat := by
    rw [BitVec.toNat_setWidth]
    omega
  rw [feeOf, BitVec.toNat_udiv, BitVec.toNat_mul, hbps]
  rfl

/-- Wrapped or not, a fee of at most 500 bps is at most a twentieth. -/
theorem feeOf_le {amount : Uint256} {feeBps : Uint16} (h : feeBps ≤ 500) :
    (feeOf amount feeBps).toNat ≤ amount.toNat / 20 := by
  have hbps : feeBps.toNat ≤ 500 := BitVec.le_def.mp h
  have hmod := Nat.mod_le (amount.toNat * feeBps.toNat) (2 ^ 256)
  have hmul : amount.toNat * feeBps.toNat ≤ amount.toNat * 500 := Nat.mul_le_mul_left _ hbps
  rw [toNat_feeOf]
  omega

/-! ## Guards around a call -/

section Guards

variable {σ ξ α : Type}

/-- `nonReentrant`, over the flag `get` reads and `set` writes. -/
def guarded (get : σ → Bool) (set : Bool → σ → σ) (body : Tx Revert (Ctx σ ξ) α) :
    Tx Revert (Ctx σ ξ) α := do
  let s ← sload
  notEntered (get s)
  sstore (set true)
  let a ← body
  sstore (set false)
  return a

/-- The balance-delta guard: `transfer` must raise the balance of `account` by
exactly `amount`. -/
def exactly (T : Token ξ) (err : Revert) (token account : Address) (amount : Uint256)
    (transfer : Tx Revert (Ctx σ ξ) Unit) : Tx Revert (Ctx σ ξ) Unit := do
  let before ← staticcall (T.balanceOf token account)
  transfer
  let after ← staticcall (T.balanceOf token account)
  let delta ← checkedSub after before
  revertIf (delta ≠ amount) err

/-- `_exactTransferFrom`: the guard around `safeTransferFrom`. -/
def exactTransferFrom (T : Token ξ) (err : Revert) (msg : Msg) (token from_ to_ : Address)
    (amount : Uint256) : Tx Revert (Ctx σ ξ) Unit :=
  exactly T err token to_ amount (call (T.safeTransferFrom msg token from_ to_ amount))

/-- `_exactTransfer`: the guard around `safeTransfer`. -/
def exactTransfer (T : Token ξ) (err : Revert) (msg : Msg) (token to_ : Address)
    (amount : Uint256) : Tx Revert (Ctx σ ξ) Unit :=
  exactly T err token to_ amount (call (T.safeTransfer msg token to_ amount))

/-- `if (feeAmount > 0) { transfer; accrue }` -/
def collectFee {δ : Type} (O : Outside ξ δ) (self : Msg) (token feeCollector : Address)
    (merchantId : Nat) (feeAmount : Uint256) (transfer : Tx Revert (Ctx σ ξ) Unit) :
    Tx Revert (Ctx σ ξ) Unit :=
  if 0 < feeAmount then do
    transfer
    call (O.accrue self feeCollector token merchantId feeAmount)
  else pure ()

variable {T : Token ξ} {err : Revert} {token account : Address} {amount : Uint256}
  {c c' : Ctx σ ξ}

theorem guarded_eq_ok {get : σ → Bool} {set : Bool → σ → σ} {body : Tx Revert (Ctx σ ξ) α}
    {a : α} :
    guarded get set body c = .ok (a, c') ↔
      get c.storage = false ∧ ∃ c₁, body { c with storage := set true c.storage } = .ok (a, c₁) ∧
        c' = { c₁ with storage := set false c₁.storage } := by
  simp only [guarded, bind_eq_ok, sload_eq_ok, notEntered_eq_ok, sstore_eq_ok, pure_eq_ok,
    Prod.mk.injEq, existsAndEq, exists_const, true_and, and_true]

theorem exactly_eq_ok {transfer : Tx Revert (Ctx σ ξ) Unit} :
    exactly T err token account amount transfer c = .ok ((), c') ↔
      ∃ before after, T.balanceOf token account c.ext = .ok before ∧
        transfer c = .ok ((), c') ∧ T.balanceOf token account c'.ext = .ok after ∧
        before.toNat ≤ after.toNat ∧ after - before = amount := by
  simp only [exactly, bind_eq_ok, staticcall_eq_ok, checkedSub_eq_ok, revertIf_eq_ok,
    Prod.mk.injEq, existsAndEq, true_and, and_true, ne_eq, not_not]
  constructor
  · rintro ⟨before, hbefore, ⟨⟩, after, htransfer, hafter, hle, hdelta⟩
    exact ⟨before, after, hbefore, htransfer, hafter, hle, hdelta⟩
  · rintro ⟨before, after, hbefore, htransfer, hafter, hle, hdelta⟩
    exact ⟨before, hbefore, (), after, htransfer, hafter, hle, hdelta⟩

theorem exactTransferFrom_ok {msg : Msg} {from_ to_ : Address}
    (h : exactTransferFrom T err msg token from_ to_ amount c = .ok ((), c')) :
    ∃ x, T.safeTransferFrom msg token from_ to_ amount c.ext = .ok x ∧ c' = { c with ext := x } := by
  obtain ⟨_, _, -, h, -⟩ := exactly_eq_ok.mp h
  obtain ⟨x, hx, h⟩ := call_eq_ok.mp h
  exact ⟨x, hx, (Prod.mk.inj h).2⟩

theorem exactTransfer_ok {msg : Msg} {to_ : Address}
    (h : exactTransfer T err msg token to_ amount c = .ok ((), c')) :
    ∃ x, T.safeTransfer msg token to_ amount c.ext = .ok x ∧ c' = { c with ext := x } := by
  obtain ⟨_, _, -, h, -⟩ := exactly_eq_ok.mp h
  obtain ⟨x, hx, h⟩ := call_eq_ok.mp h
  exact ⟨x, hx, (Prod.mk.inj h).2⟩

/-- What a settlement by `transferFrom` does outside: the fee leg and its accrual,
if there is a fee, then the merchant's leg. -/
def Settles {δ : Type} (O : Outside ξ δ) (self : Msg) (payer token feeCollector : Address)
    (merchantId : Nat) (feeAmount : Uint256) (payout : Address) (netAmount : Uint256)
    (x x' : ξ) : Prop :=
  ∃ x₂, (0 < feeAmount ∧ (∃ x₁,
        O.safeTransferFrom self token payer feeCollector feeAmount x = .ok x₁ ∧
        O.accrue self feeCollector token merchantId feeAmount x₁ = .ok x₂) ∨
      ¬ 0 < feeAmount ∧ x₂ = x) ∧
    O.safeTransferFrom self token payer payout netAmount x₂ = .ok x'

theorem collectFee_eq_ok {δ : Type} {O : Outside ξ δ} {self : Msg} {feeCollector : Address}
    {merchantId : Nat} {transfer : Tx Revert (Ctx σ ξ) Unit} :
    collectFee O self token feeCollector merchantId amount transfer c = .ok ((), c') ↔
      0 < amount ∧ (∃ c₁, transfer c = .ok ((), c₁) ∧ ∃ x,
          O.accrue self feeCollector token merchantId amount c₁.ext = .ok x ∧
          c' = { c₁ with ext := x }) ∨
        ¬ 0 < amount ∧ c' = c := by
  simp only [collectFee, ite_eq_ok, bind_eq_ok, call_eq_ok, pure_eq_ok, Prod.mk.injEq, true_and]
  exact or_congr_left (and_congr_right fun _ => ⟨fun ⟨_, h⟩ => h, fun h => ⟨(), h⟩⟩)

/-- The two legs of a settlement by `transferFrom`, both gone through. -/
theorem settles_of_legs {δ : Type} {O : Outside ξ δ} {self : Msg}
    {payer feeCollector payout : Address} {merchantId : Nat} {feeAmount netAmount : Uint256}
    {c₁ : Ctx σ ξ}
    (hfee : collectFee O self token feeCollector merchantId feeAmount
      (exactTransferFrom O.toToken err self token payer feeCollector feeAmount) c = .ok ((), c₁))
    (hnet : exactTransferFrom O.toToken err self token payer payout netAmount c₁ = .ok ((), c')) :
    ∃ x, Settles O self payer token feeCollector merchantId feeAmount payout netAmount c.ext x ∧
      c' = { c with ext := x } := by
  obtain ⟨x', hx', rfl⟩ := exactTransferFrom_ok hnet
  rcases collectFee_eq_ok.mp hfee with ⟨hpos, _, htransfer, x₂, haccrue, rfl⟩ | ⟨hzero, rfl⟩
  · obtain ⟨x₁, hx₁, rfl⟩ := exactTransferFrom_ok htransfer
    exact ⟨x', ⟨x₂, Or.inl ⟨hpos, x₁, hx₁, haccrue⟩, hx'⟩, rfl⟩
  · exact ⟨x', ⟨_, Or.inr ⟨hzero, rfl⟩, hx'⟩, rfl⟩

end Guards

end Strimz
